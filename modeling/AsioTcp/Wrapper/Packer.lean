import AsioTcp.Wrapper.PrefixSuffix
import AsioTcp.Wrapper.Unpacker

/-!
# `packer` and `prefix_suffix_packer`

A message is passed in pieces; those that are null are skipped. The length is
added up in `size_t`, and a message that has no body, is longer than
`MSG_BUFFER_SIZE` or does not fit the head comes out empty.
-/

namespace AsioTcp.Wrapper

/-- `pstr` and `len`; `none` is a null pointer. -/
abbrev Pieces := List (Option (List UInt8))

/-- What the pieces come to. -/
def Pieces.body (pieces : Pieces) : List UInt8 := pieces.flatMap fun p => p.getD []

/-- `a + b` in `size_t` -/
def sizeAdd (a b : Nat) : Nat := (a + b) % 2 ^ 64

/-- The loop of `msg_size_check`; `none` is `(size_t) -1`. -/
def msgSizeCheckLoop (msgBufferSize totalLen : Nat) : Pieces → Option Nat
  | [] => some totalLen
  | none :: pieces => msgSizeCheckLoop msgBufferSize totalLen pieces
  | some p :: pieces =>
    let lastTotalLen := totalLen
    let totalLen := sizeAdd totalLen p.length
    if lastTotalLen > totalLen ∨ totalLen > msgBufferSize then none
    else msgSizeCheckLoop msgBufferSize totalLen pieces

/-- `msg_size_check` -/
def msgSizeCheck (msgBufferSize preLen : Nat) : Option Pieces → Option Nat
  | none => none
  | some pieces => msgSizeCheckLoop msgBufferSize preLen pieces

/-- `packer::pack_msg` -/
def packMsg (c : Config) (pstr : Option Pieces) (native : Bool) : List UInt8 :=
  let preLen := if native then 0 else c.headLen
  match msgSizeCheck c.msgBufferSize preLen pstr with
  | none => []
  | some totalLen =>
    if totalLen > preLen then
      let body := (pstr.getD []).body
      if native then body
      else
        let headLen := totalLen % 256 ^ c.headLen
        if totalLen ≠ headLen then [] else BigEndian.encode c.headLen headLen ++ body
    else []

/-- `prefix_suffix_packer::pack_msg` -/
def PrefixSuffixConfig.packMsg (c : PrefixSuffixConfig) (pstr : Option Pieces) (native : Bool) :
    List UInt8 :=
  let preLen := if native then 0 else c.prefixBytes.length + c.suffixBytes.length
  match msgSizeCheck c.msgBufferSize preLen pstr with
  | none => []
  | some totalLen =>
    if totalLen > preLen then
      let body := (pstr.getD []).body
      if native then body else c.prefixBytes ++ (body ++ c.suffixBytes)
    else []

/-! ## The length -/

/-- Every length is a `size_t`. -/
def Pieces.Sized (pieces : Pieces) : Prop := ∀ p ∈ pieces, (p.getD []).length < 2 ^ 64

theorem Pieces.body_cons (p : Option (List UInt8)) (pieces : Pieces) :
    Pieces.body (p :: pieces) = p.getD [] ++ pieces.body := List.flatMap_cons

/-- An overflow is always noticed, so that the check is the one on numbers. -/
theorem msgSizeCheckLoop_eq {msgBufferSize totalLen : Nat} {pieces : Pieces}
    (hsize : msgBufferSize < 2 ^ 63) (hle : totalLen ≤ msgBufferSize) (hp : pieces.Sized) :
    msgSizeCheckLoop msgBufferSize totalLen pieces =
      if totalLen + pieces.body.length ≤ msgBufferSize then some (totalLen + pieces.body.length)
      else none := by
  induction pieces generalizing totalLen with
  | nil =>
    have hnil : totalLen + (Pieces.body []).length = totalLen := rfl
    rw [hnil, if_pos hle]
    rfl
  | cons p pieces ih =>
    obtain ⟨hlen, hrest⟩ := List.forall_mem_cons.mp hp
    rw [Pieces.body_cons, List.length_append, ← Nat.add_assoc]
    cases p with
    | none => exact ih hle hrest
    | some bytes =>
      simp only [Option.getD_some] at hlen ⊢
      rw [msgSizeCheckLoop]
      by_cases hfit : totalLen + bytes.length < 2 ^ 64
      · rw [sizeAdd, Nat.mod_eq_of_lt hfit]
        by_cases hlong : totalLen + bytes.length > msgBufferSize
        · rw [if_pos (.inr hlong), if_neg (by omega)]
        · rw [if_neg (by omega), ih (Nat.not_lt.mp hlong) hrest]
      · have hwrap : sizeAdd totalLen bytes.length = totalLen + bytes.length - 2 ^ 64 := by
          rw [sizeAdd, Nat.mod_eq_sub_mod (Nat.not_lt.mp hfit), Nat.mod_eq_of_lt (by omega)]
        rw [hwrap, if_pos (by omega), if_neg (by omega)]

theorem msgSizeCheck_eq {msgBufferSize preLen : Nat} {pieces : Pieces}
    (hsize : msgBufferSize < 2 ^ 63) (hle : preLen ≤ msgBufferSize) (hp : pieces.Sized) :
    msgSizeCheck msgBufferSize preLen (some pieces) =
      if preLen + pieces.body.length ≤ msgBufferSize then some (preLen + pieces.body.length)
      else none := msgSizeCheckLoop_eq hsize hle hp

/-! ## What is sent -/

/-- A message on the wire. -/
def Config.wire (c : Config) (body : List UInt8) : List UInt8 :=
  BigEndian.encode c.headLen (c.headLen + body.length) ++ body

/-- A body that can be sent. -/
structure Config.Packable (c : Config) (body : List UInt8) : Prop where
  ne_nil : body ≠ []
  fits : c.headLen + body.length ≤ c.msgBufferSize
  head : c.headLen + body.length < 256 ^ c.headLen

def PrefixSuffixConfig.wire (c : PrefixSuffixConfig) (body : List UInt8) : List UInt8 :=
  c.prefixBytes ++ (body ++ c.suffixBytes)

structure PrefixSuffixConfig.Packable (c : PrefixSuffixConfig) (body : List UInt8) : Prop where
  ne_nil : body ≠ []
  fits : body.length + c.minLen ≤ c.msgBufferSize

theorem packMsg_of_packable {c : Config} {pieces : Pieces} (hp : pieces.Sized)
    (h : c.Packable pieces.body) : packMsg c (some pieces) false = c.wire pieces.body := by
  have hpos := List.length_pos_iff.mpr h.ne_nil
  have hcheck := msgSizeCheck_eq c.msgBufferSize_lt (Nat.le_of_lt c.headLen_lt) hp
  rw [if_pos h.fits] at hcheck
  simp only [packMsg, Bool.false_eq_true, if_false, hcheck,
    if_pos (show c.headLen + pieces.body.length > c.headLen by omega),
    Nat.mod_eq_of_lt h.head, ne_eq, not_true_eq_false, Option.getD_some]
  rfl

/-- Nothing else is sent. -/
theorem packable_of_packMsg {c : Config} {pieces : Pieces} (hp : pieces.Sized)
    (h : packMsg c (some pieces) false ≠ []) : c.Packable pieces.body := by
  have hcheck := msgSizeCheck_eq c.msgBufferSize_lt (Nat.le_of_lt c.headLen_lt) hp
  by_cases hfits : c.headLen + pieces.body.length ≤ c.msgBufferSize
  · rw [if_pos hfits] at hcheck
    simp only [packMsg, Bool.false_eq_true, if_false, hcheck] at h
    by_cases hlong : c.headLen + pieces.body.length > c.headLen
    · rw [if_pos hlong] at h
      have hmod := Nat.mod_lt (c.headLen + pieces.body.length)
        (Nat.pow_pos (n := c.headLen) (show 0 < 256 by decide))
      have hhead : ¬ c.headLen + pieces.body.length ≠
          (c.headLen + pieces.body.length) % 256 ^ c.headLen := by
        intro hne
        rw [if_pos hne] at h
        exact h rfl
      exact ⟨List.length_pos_iff.mp (by omega), hfits, by omega⟩
    · rw [if_neg hlong] at h
      exact absurd rfl h
  · rw [if_neg hfits] at hcheck
    simp only [packMsg, Bool.false_eq_true, if_false, hcheck] at h
    exact absurd rfl h

theorem PrefixSuffixConfig.packMsg_of_packable {c : PrefixSuffixConfig} {pieces : Pieces}
    (hsize : c.msgBufferSize < 2 ^ 63) (hp : pieces.Sized) (h : c.Packable pieces.body) :
    c.packMsg (some pieces) false = c.wire pieces.body := by
  have hpos := List.length_pos_iff.mpr h.ne_nil
  have hcheck := msgSizeCheck_eq hsize (Nat.le_of_lt c.length_lt) hp
  have hfits := h.fits
  unfold PrefixSuffixConfig.minLen at hfits
  rw [if_pos (by omega)] at hcheck
  simp only [PrefixSuffixConfig.packMsg, Bool.false_eq_true, if_false, hcheck, Option.getD_some]
  exact if_pos (by omega)

theorem PrefixSuffixConfig.packable_of_packMsg {c : PrefixSuffixConfig} {pieces : Pieces}
    (hsize : c.msgBufferSize < 2 ^ 63) (hp : pieces.Sized)
    (h : c.packMsg (some pieces) false ≠ []) : c.Packable pieces.body := by
  have hcheck := msgSizeCheck_eq hsize (Nat.le_of_lt c.length_lt) hp
  by_cases hfits : c.prefixBytes.length + c.suffixBytes.length + pieces.body.length ≤
      c.msgBufferSize
  · rw [if_pos hfits] at hcheck
    simp only [PrefixSuffixConfig.packMsg, Bool.false_eq_true, if_false, hcheck] at h
    by_cases hnil : pieces.body = []
    · rw [hnil, List.length_nil, if_neg (by omega)] at h
      exact absurd rfl h
    · refine ⟨hnil, ?_⟩
      unfold PrefixSuffixConfig.minLen
      omega
  · rw [if_neg hfits] at hcheck
    simp only [PrefixSuffixConfig.packMsg, Bool.false_eq_true, if_false, hcheck] at h
    exact absurd rfl h

/-- The native form is the pieces as they are, if they fit the buffer. -/
theorem packMsg_native {c : Config} {pieces : Pieces} (hp : pieces.Sized) :
    packMsg c (some pieces) true =
      if pieces.body.length ≤ c.msgBufferSize then pieces.body else [] := by
  have hcheck := msgSizeCheck_eq c.msgBufferSize_lt (Nat.zero_le _) hp
  rw [Nat.zero_add] at hcheck
  by_cases hfits : pieces.body.length ≤ c.msgBufferSize
  · rw [if_pos hfits] at hcheck ⊢
    simp only [packMsg, if_true, hcheck, Option.getD_some]
    split
    · rfl
    · exact (List.length_eq_zero_iff.mp (by omega)).symm
  · rw [if_neg hfits] at hcheck ⊢
    simp only [packMsg, if_true, hcheck]

theorem PrefixSuffixConfig.packMsg_native {c : PrefixSuffixConfig} {pieces : Pieces}
    (hsize : c.msgBufferSize < 2 ^ 63) (hp : pieces.Sized) :
    c.packMsg (some pieces) true =
      if pieces.body.length ≤ c.msgBufferSize then pieces.body else [] := by
  have hcheck := msgSizeCheck_eq hsize (Nat.zero_le _) hp
  rw [Nat.zero_add] at hcheck
  by_cases hfits : pieces.body.length ≤ c.msgBufferSize
  · rw [if_pos hfits] at hcheck ⊢
    simp only [PrefixSuffixConfig.packMsg, if_true, hcheck, Option.getD_some]
    split
    · rfl
    · exact (List.length_eq_zero_iff.mp (by omega)).symm
  · rw [if_neg hfits] at hcheck ⊢
    simp only [PrefixSuffixConfig.packMsg, if_true, hcheck]

/-- **Both packers**, for pieces of any lengths, also those whose sum wraps
around: what comes out is the message on the wire or nothing, and it is
nothing exactly when the body is empty or too long. -/
theorem pack_exact (c : Config) (d : PrefixSuffixConfig) (hsize : d.msgBufferSize < 2 ^ 63)
    (pieces : Pieces) (hp : pieces.Sized) :
    ((c.Packable pieces.body ∧ packMsg c (some pieces) false = c.wire pieces.body) ∨
      (¬ c.Packable pieces.body ∧ packMsg c (some pieces) false = [])) ∧
    ((d.Packable pieces.body ∧ d.packMsg (some pieces) false = d.wire pieces.body) ∨
      (¬ d.Packable pieces.body ∧ d.packMsg (some pieces) false = [])) ∧
    (packMsg c (some pieces) true =
      if pieces.body.length ≤ c.msgBufferSize then pieces.body else []) ∧
    (d.packMsg (some pieces) true =
      if pieces.body.length ≤ d.msgBufferSize then pieces.body else []) := by
  refine ⟨?_, ?_, packMsg_native hp, PrefixSuffixConfig.packMsg_native hsize hp⟩
  · by_cases h : packMsg c (some pieces) false = []
    · refine .inr ⟨fun hpack => ?_, h⟩
      rw [packMsg_of_packable hp hpack] at h
      exact hpack.ne_nil (List.append_eq_nil_iff.mp h).2
    · have hpack := packable_of_packMsg hp h
      exact .inl ⟨hpack, packMsg_of_packable hp hpack⟩
  · by_cases h : d.packMsg (some pieces) false = []
    · refine .inr ⟨fun hpack => ?_, h⟩
      rw [PrefixSuffixConfig.packMsg_of_packable hsize hp hpack] at h
      exact hpack.ne_nil (List.append_eq_nil_iff.mp (List.append_eq_nil_iff.mp h).2).1
    · have hpack := PrefixSuffixConfig.packable_of_packMsg hsize hp h
      exact .inl ⟨hpack, PrefixSuffixConfig.packMsg_of_packable hsize hp hpack⟩

/-- A message of two pieces between which a null pointer stands. -/
theorem pack_exact_pieces :
    ∃ (c : Config) (d : PrefixSuffixConfig) (pieces : Pieces),
      packMsg c (some pieces) false = [0, 5, 65, 66, 67] ∧
      d.packMsg (some pieces) false = [1, 65, 66, 67, 2, 3] ∧
      ((c.Packable pieces.body ∧ packMsg c (some pieces) false = c.wire pieces.body) ∨
        (¬ c.Packable pieces.body ∧ packMsg c (some pieces) false = [])) := by
  let c : Config := ⟨2, 8, by decide, by decide, by decide, by decide⟩
  let d : PrefixSuffixConfig := ⟨8, [1], [2, 3], by decide, by decide⟩
  exact ⟨c, d, [some [65], none, some [66, 67]], by decide +kernel, by decide +kernel,
    (pack_exact c d (by decide) _ (by unfold Pieces.Sized; decide)).1⟩

end AsioTcp.Wrapper
