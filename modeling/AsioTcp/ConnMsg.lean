import AsioTcp.GlobalItem

/-!
# `conn_msg`

A message is a header and a body. The body lives in the inline array
`buff_fix` up to 256 bytes and in a block from `new char[]` above that;
`size_allocated_` is the size of the block and 0 without one. The functions
below are `conn_msg::conn_msg`, `capacity`, `body_length(size_t)` and both
`set_body`; each takes what `new char[]` gives, should the call get that far.
`WellFormed` is what every message built by them satisfies, and
`setBody_body` says that a body which has been set reads back as it was given.
-/

namespace AsioTcp

/-- `conn_msg::max_body_length`. -/
def maxBodyLength : SizeT := 256

/-- Where `buff_` points: nowhere, to `buff_fix`, or to a block of the heap,
which belongs to this message alone. -/
inductive Buff
  | null
  | fixed
  | block (id : Nat) (bytes : List BYTE)
  deriving DecidableEq, Repr

structure ConnMsg where
  buffFix : List BYTE
  buff : Buff
  sizeAllocated : SizeT
  header : HDR
  deriving DecidableEq, Repr

namespace ConnMsg

/-- `conn_msg::conn_msg`. The array `buff_fix` is left indeterminate there; it
is zero here, and no function reads it before `body_length` has cleared it. -/
def ofHeader (header : HDR) : ConnMsg where
  buffFix := List.replicate maxBodyLength.toNat 0
  buff := .null
  sizeAllocated := 0
  header := header

/-- `body_length()`. -/
def bodyLength (m : ConnMsg) : SizeT := m.header.len

def capacity (m : ConnMsg) : SizeT :=
  if m.sizeAllocated > 0 then m.sizeAllocated else maxBodyLength

/-- The memory behind `body()`. -/
def content (m : ConnMsg) : List BYTE :=
  match m.buff with
  | .null => []
  | .fixed => m.buffFix
  | .block _ bytes => bytes

/-- The `body_length()` bytes that `body()` points to. -/
def body (m : ConnMsg) : List BYTE := m.content.take m.bodyLength.toNat

/-- `header_.len = nSize`. -/
def setLen (m : ConnMsg) (nSize : SizeT) : ConnMsg :=
  { m with header := m.header.setLen nSize }

/-- First half of `body_length(size_t)`: a block that is too small for `nSize`
bytes is given back. -/
def releaseSmall (m : ConnMsg) (nSize : SizeT) : ConnMsg :=
  if m.sizeAllocated ≠ 0 ∧ ¬ nSize ≤ m.sizeAllocated then
    { m with buff := .null, sizeAllocated := 0 }
  else m

/-- `body_length(size_t)`. `newChar` is the block that `new char[]` would
return, `none` if it would throw; the flag says that it was called and threw,
and then the message stays as it is at that point. -/
def setBodyLength (m : ConnMsg) (nSize : SizeT) (newChar : Option Nat) : ConnMsg × Bool :=
  let m := m.releaseSmall nSize
  if m.sizeAllocated ≠ 0 then (m.setLen nSize, false)
  else
    let m := m.setLen nSize
    if nSize > maxBodyLength then
      match newChar with
      | none => (m, true)
      | some id =>
        ({ m with buff := .block id (List.replicate nSize.toNat 0), sizeAllocated := nSize }, false)
    else
      ({ m with buff := .fixed,
                buffFix := List.replicate nSize.toNat 0 ++ m.buffFix.drop nSize.toNat }, false)

/-- The bytes `dst` after the first `n` bytes of `src` are copied over them. -/
def overwrite (dst src : List BYTE) (n : Nat) : List BYTE :=
  src.take n ++ dst.drop (src.take n).length

/-- `memcpy(buff_, src, n)`. -/
def memcpy (m : ConnMsg) (src : List BYTE) (n : Nat) : ConnMsg :=
  match m.buff with
  | .null => m
  | .fixed => { m with buffFix := overwrite m.buffFix src n }
  | .block id bytes => { m with buff := .block id (overwrite bytes src n) }

/-- `set_body(void*, size_t)`, and `set_body(const streambuf&)` with the data
and the size of the stream buffer. -/
def setBody (m : ConnMsg) (pData : List BYTE) (nSize : SizeT) (newChar : Option Nat) :
    ConnMsg × Bool :=
  match m.setBodyLength nSize newChar with
  | (m, true) => (m, true)
  | (m, false) => (m.memcpy pData nSize.toNat, false)

/-! ## Representation -/

/-- Either no block is allocated, or `buff_` is the block of
`size_allocated_` bytes, more than the inline array holds. -/
structure WellFormed (m : ConnMsg) : Prop where
  inline : m.buffFix.length = maxBodyLength.toNat
  rep : (m.sizeAllocated = 0 ∧ (m.buff = .null ∨ m.buff = .fixed)) ∨
    (m.sizeAllocated > maxBodyLength ∧
      ∃ id bytes, m.buff = .block id bytes ∧ bytes.length = m.sizeAllocated.toNat)

theorem ofHeader_wellFormed (header : HDR) : (ofHeader header).WellFormed :=
  ⟨by simp [ofHeader], Or.inl ⟨rfl, Or.inl rfl⟩⟩

/-- A message is poolable, that is has the inline capacity, exactly when it
has no block. -/
theorem WellFormed.capacity_eq_iff {m : ConnMsg} (h : m.WellFormed) :
    m.capacity = maxBodyLength ↔ m.sizeAllocated = 0 := by
  unfold capacity
  rcases h.rep with ⟨h0, _⟩ | ⟨hgt, _⟩
  · simp [h0]
  · have hpos : m.sizeAllocated > 0 := by
      simp only [maxBodyLength, gt_iff_lt, UInt32.lt_iff_toNat_lt] at hgt ⊢
      simp at hgt ⊢
      omega
    rw [if_pos hpos]
    constructor
    · intro he
      rw [he] at hgt
      exact absurd hgt (by decide)
    · intro he
      rw [he] at hpos
      exact absurd hpos (by decide)

@[simp] theorem setLen_header (m : ConnMsg) (n : SizeT) :
    (m.setLen n).header = m.header.setLen n := rfl

@[simp] theorem releaseSmall_header (m : ConnMsg) (n : SizeT) :
    (m.releaseSmall n).header = m.header := by
  unfold releaseSmall
  split <;> rfl

@[simp] theorem memcpy_header (m : ConnMsg) (src : List BYTE) (n : Nat) :
    (m.memcpy src n).header = m.header := by
  unfold memcpy
  split <;> rfl

@[simp] theorem memcpy_sizeAllocated (m : ConnMsg) (src : List BYTE) (n : Nat) :
    (m.memcpy src n).sizeAllocated = m.sizeAllocated := by
  unfold memcpy
  split <;> rfl

theorem releaseSmall_wellFormed {m : ConnMsg} (h : m.WellFormed) (n : SizeT) :
    (m.releaseSmall n).WellFormed := by
  unfold releaseSmall
  split
  · exact ⟨h.inline, Or.inl ⟨rfl, Or.inl rfl⟩⟩
  · exact h

/-- What `body_length(size_t)` leaves behind: the size is recorded, even when
the allocation threw, and nothing else of the header changes. -/
theorem setBodyLength_header (m : ConnMsg) (n : SizeT) (newChar : Option Nat) :
    (m.setBodyLength n newChar).1.header = m.header.setLen n := by
  unfold setBodyLength
  simp only
  split
  · simp
  · split
    · split <;> simp
    · simp

theorem setBodyLength_wellFormed {m : ConnMsg} (h : m.WellFormed) (n : SizeT)
    (newChar : Option Nat) : (m.setBodyLength n newChar).1.WellFormed := by
  have hr := releaseSmall_wellFormed h n
  unfold setBodyLength
  simp only
  split
  · exact ⟨hr.inline, hr.rep⟩
  · rename_i h0
    have h0 : (m.releaseSmall n).sizeAllocated = 0 := Decidable.not_not.mp h0
    split
    · rename_i hbig
      split
      · exact ⟨hr.inline, hr.rep⟩
      · exact ⟨hr.inline, Or.inr ⟨hbig, _, _, rfl, by simp⟩⟩
    · rename_i hsmall
      have hn : n.toNat ≤ maxBodyLength.toNat := by
        have := UInt32.not_lt.mp hsmall
        exact UInt32.le_iff_toNat_le.mp this
      refine ⟨?_, Or.inl ⟨h0, Or.inr rfl⟩⟩
      have := hr.inline
      simp only [setLen, List.length_append, List.length_replicate, List.length_drop]
      omega

/-- After a call that did not throw, `buff_` has room for the size asked. -/
theorem setBodyLength_room {m : ConnMsg} (h : m.WellFormed) (n : SizeT) (newChar : Option Nat)
    (hok : (m.setBodyLength n newChar).2 = false) :
    (m.setBodyLength n newChar).1.buff ≠ .null ∧ n.toNat ≤ (m.setBodyLength n newChar).1.content.length := by
  have hr := releaseSmall_wellFormed h n
  unfold setBodyLength at hok ⊢
  simp only at hok ⊢
  split
  · -- the block that is kept was found large enough
    rename_i hkept
    have hfits : n ≤ (m.releaseSmall n).sizeAllocated := by
      unfold releaseSmall at hkept ⊢
      split
      · rename_i hgone
        rw [if_pos hgone] at hkept
        exact absurd rfl hkept
      · rename_i hstay
        rw [if_neg hstay] at hkept
        exact Decidable.not_not.mp fun hc => hstay ⟨hkept, hc⟩
    rcases hr.rep with ⟨h0, _⟩ | ⟨_, id, bytes, hb, hl⟩
    · exact absurd h0 hkept
    · refine ⟨by simp [setLen, hb], ?_⟩
      have := UInt32.le_iff_toNat_le.mp hfits
      simp only [content, setLen, hb]
      omega
  · rename_i h0
    rw [if_neg h0] at hok
    split
    · rename_i hbig
      rw [if_pos hbig] at hok
      cases newChar with
      | none => cases hok
      | some id => simp [content]
    · have hl := hr.inline
      simp only [content, setLen, List.length_append, List.length_replicate, List.length_drop]
      exact ⟨by simp, by omega⟩

/-- A block is only replaced by a larger one. -/
theorem setBodyLength_grows {m : ConnMsg} (h : m.WellFormed) {n : SizeT} {newChar : Option Nat}
    (hok : (m.setBodyLength n newChar).2 = false) :
    m.sizeAllocated ≤ (m.setBodyLength n newChar).1.sizeAllocated := by
  by_cases hsmall : m.sizeAllocated ≠ 0 ∧ ¬ n ≤ m.sizeAllocated
  · have hkept : m.releaseSmall n = { m with buff := .null, sizeAllocated := 0 } := if_pos hsmall
    have hlt : m.sizeAllocated < n := UInt32.not_le.mp hsmall.2
    have hbig : n > maxBodyLength := by
      rcases h.rep with ⟨h0, _⟩ | ⟨hgt, _⟩
      · exact absurd h0 hsmall.1
      · exact UInt32.lt_trans hgt hlt
    unfold setBodyLength at hok ⊢
    simp only [hkept, ne_eq, not_true_eq_false, if_false, if_pos hbig] at hok ⊢
    cases newChar with
    | none => cases hok
    | some id => exact UInt32.le_of_lt hlt
  · have hkept : m.releaseSmall n = m := if_neg hsmall
    unfold setBodyLength
    simp only [hkept]
    by_cases h0 : m.sizeAllocated = 0
    · rw [h0]
      exact UInt32.zero_le
    · rw [if_pos h0]
      exact UInt32.le_refl _

/-- When `new char[]` throws the message has no block, and the length that was
asked for. -/
theorem setBodyLength_threw {m : ConnMsg} {n : SizeT} {newChar : Option Nat}
    (hthrew : (m.setBodyLength n newChar).2 = true) :
    n > maxBodyLength ∧ (m.setBodyLength n newChar).1.sizeAllocated = 0 := by
  unfold setBodyLength at hthrew ⊢
  simp only at hthrew ⊢
  split at hthrew
  · cases hthrew
  · rename_i h0
    rw [if_neg h0]
    split at hthrew
    · rename_i hbig
      rw [if_pos hbig]
      cases newChar with
      | none => exact ⟨hbig, Decidable.not_not.mp h0⟩
      | some id => cases hthrew
    · cases hthrew

theorem length_overwrite {dst src : List BYTE} {n : Nat} (h : n ≤ dst.length) :
    (overwrite dst src n).length = dst.length := by
  simp only [overwrite, List.length_append, List.length_take, List.length_drop]
  omega

theorem memcpy_wellFormed {m : ConnMsg} (h : m.WellFormed) {src : List BYTE} {n : Nat}
    (hroom : n ≤ m.content.length) : (m.memcpy src n).WellFormed := by
  unfold memcpy
  unfold content at hroom
  split
  · exact h
  · rename_i hb
    simp only [hb] at hroom
    exact ⟨(length_overwrite hroom).trans h.inline, by simpa [hb] using h.rep⟩
  · rename_i id bytes hb
    simp only [hb] at hroom
    rcases h.rep with ⟨_, hn | hf⟩ | ⟨hgt, id', bytes', hb', hl⟩
    · rw [hb] at hn; cases hn
    · rw [hb] at hf; cases hf
    · rw [hb] at hb'
      cases hb'
      exact ⟨h.inline, Or.inr ⟨hgt, _, _, rfl, (length_overwrite hroom).trans hl⟩⟩

theorem memcpy_content {m : ConnMsg} {src : List BYTE} {n : Nat} (hb : m.buff ≠ .null)
    (hsrc : src.length = n) : (m.memcpy src n).content.take n = src := by
  unfold memcpy content
  cases h : m.buff with
  | null => exact absurd h hb
  | fixed => simp [overwrite, ← hsrc]
  | block id bytes => simp [overwrite, ← hsrc]

/-! ## `set_body` -/

theorem setBody_header (m : ConnMsg) (data : List BYTE) (n : SizeT) (newChar : Option Nat) :
    (m.setBody data n newChar).1.header = m.header.setLen n := by
  have hh := setBodyLength_header m n newChar
  unfold setBody
  split <;> rename_i hr <;> rw [hr] at hh
  · exact hh
  · rw [memcpy_header]; exact hh

theorem setBody_wellFormed {m : ConnMsg} (h : m.WellFormed) (data : List BYTE) (n : SizeT)
    (newChar : Option Nat) : (m.setBody data n newChar).1.WellFormed := by
  have hw := setBodyLength_wellFormed h n newChar
  have hroom := setBodyLength_room h n newChar
  unfold setBody
  split <;> rename_i hr <;> rw [hr] at hw hroom
  · exact hw
  · exact memcpy_wellFormed hw (hroom rfl).2

/-- `set_body` does not throw when `new char[]` does not. -/
theorem setBody_some (m : ConnMsg) (data : List BYTE) (n : SizeT) (id : Nat) :
    (m.setBody data n (some id)).2 = false := by
  have hok : (m.setBodyLength n (some id)).2 = false := by
    unfold setBodyLength
    simp only
    split
    · rfl
    · split <;> rfl
  unfold setBody
  split
  · rename_i hr
    rw [hr] at hok
    cases hok
  · rfl

theorem setBody_grows {m : ConnMsg} (h : m.WellFormed) {data : List BYTE} {n : SizeT}
    {newChar : Option Nat} (hok : (m.setBody data n newChar).2 = false) :
    m.sizeAllocated ≤ (m.setBody data n newChar).1.sizeAllocated := by
  have hgrows := @setBodyLength_grows m h n newChar
  unfold setBody at hok ⊢
  split at hok
  · cases hok
  · rename_i hr
    rw [hr] at hgrows
    rw [memcpy_sizeAllocated]
    exact hgrows rfl

theorem setBody_not_null {m : ConnMsg} (h : m.WellFormed) {data : List BYTE} {n : SizeT}
    {newChar : Option Nat} (hok : (m.setBody data n newChar).2 = false) :
    (m.setBody data n newChar).1.buff ≠ .null := by
  have hroom := setBodyLength_room h n newChar
  unfold setBody at hok ⊢
  split at hok
  · cases hok
  · rename_i m' hr
    rw [hr] at hroom
    have hb := (hroom rfl).1
    unfold memcpy
    cases hbuff : m'.buff with
    | null => exact absurd hbuff hb
    | fixed => simp
    | block => simp

/-- **A body reads back as it was set**, whatever the message held before. -/
theorem setBody_body {m : ConnMsg} (h : m.WellFormed) {data : List BYTE} {n : SizeT}
    {newChar : Option Nat} (hlen : data.length = n.toNat)
    (hok : (m.setBody data n newChar).2 = false) :
    (m.setBody data n newChar).1.body = data := by
  have hroom := setBodyLength_room h n newChar
  have hh := setBody_header m data n newChar
  unfold body bodyLength
  rw [hh]
  unfold setBody at hok ⊢
  split at hok
  · cases hok
  · rename_i hr
    rw [hr] at hroom
    exact memcpy_content (hroom rfl).1 hlen

/-- A message without a block needs one for a body above the inline size. -/
theorem setBody_threw_iff {m : ConnMsg} (h0 : m.sizeAllocated = 0) (data : List BYTE) (n : SizeT)
    (newChar : Option Nat) :
    (m.setBody data n newChar).2 = true ↔ n > maxBodyLength ∧ newChar = none := by
  have hkeep : m.releaseSmall n = m := by
    unfold releaseSmall
    rw [if_neg]
    rintro ⟨hne, _⟩
    exact hne h0
  have hflag : (m.setBody data n newChar).2 = (m.setBodyLength n newChar).2 := by
    unfold setBody
    split <;> rename_i hr <;> rw [hr]
  rw [hflag]
  unfold setBodyLength
  simp only [hkeep, h0, ne_eq, not_true_eq_false, if_false]
  split
  · rename_i hbig
    cases newChar with
    | none => simp [hbig]
    | some id => simp
  · rename_i hsmall
    simp [hsmall]

end ConnMsg

/-- A message as it exists outside the member functions of `conn_msg`. -/
structure Msg where
  val : ConnMsg
  wellFormed : val.WellFormed

namespace Msg

def ofHeader (header : HDR) : Msg := ⟨.ofHeader header, ConnMsg.ofHeader_wellFormed header⟩

/-- The message after `set_body`, and whether it threw. -/
def setBody (m : Msg) (data : List BYTE) (n : SizeT) (newChar : Option Nat) : Msg × Bool :=
  (⟨(m.val.setBody data n newChar).1, ConnMsg.setBody_wellFormed m.wellFormed data n newChar⟩,
    (m.val.setBody data n newChar).2)

end Msg

end AsioTcp
