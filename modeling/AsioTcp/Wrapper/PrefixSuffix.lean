import AsioTcp.Lib.FirstOccurrence
import AsioTcp.Wrapper.Buffered

/-!
# `prefix_suffix_unpacker`

A message stands between a prefix and a suffix. `peek_msg` checks the prefix as
soon as it is there and then looks for the suffix in all there is; a message
without a body is only noticed with the byte that follows it, and then an
assertion fails.
-/

namespace AsioTcp.Wrapper

open StreamFramer

/-- `MSG_BUFFER_SIZE`, and what `prefix_suffix` has been called with. -/
structure PrefixSuffixConfig where
  msgBufferSize : Nat
  prefixBytes : List UInt8
  suffixBytes : List UInt8
  suffix_ne : suffixBytes ≠ []
  length_lt : prefixBytes.length + suffixBytes.length < msgBufferSize

/-- `min_len` -/
def PrefixSuffixConfig.minLen (c : PrefixSuffixConfig) : Nat :=
  c.prefixBytes.length + c.suffixBytes.length

/-- The loop of `memmem`, for the places that are left to try. -/
def memmemLoop (sub : List UInt8) : Nat → List UInt8 → Option Nat
  | 0, _ => none
  | k + 1, mem =>
    if mem.take sub.length = sub then some 0 else (memmemLoop sub k mem.tail).map (· + 1)

/-- `memmem`, by the distance of the place from `mem` -/
def memmem (mem sub : List UInt8) : Option Nat :=
  if sub.length ≤ mem.length then memmemLoop sub (mem.length - sub.length + 1) mem else none

structure PrefixSuffixUnpacker (c : PrefixSuffixConfig) where
  rawBuff : Buffer UInt8 c.msgBufferSize
  /-- `none` is -1: the prefix has not been checked; 0: it has -/
  firstMsgLen : Option Nat
  remainLen : Nat

namespace PrefixSuffixUnpacker

variable {c : PrefixSuffixConfig}

/-- `peek_msg` over the `data_len` bytes at `buff`: what it returns, and the new
`first_msg_len`. -/
def peekMsg (c : PrefixSuffixConfig) (firstMsgLen : Option Nat) (data : List UInt8) :
    Nat × Option Nat :=
  if firstMsgLen = none ∧ data.length ≥ c.prefixBytes.length ∧
      data.take c.prefixBytes.length ≠ c.prefixBytes then (0, none)
  else
    let firstMsgLen :=
      if firstMsgLen = none ∧ data.length ≥ c.prefixBytes.length then some 0 else firstMsgLen
    if data.length > c.minLen then
      match memmem (data.drop c.prefixBytes.length) c.suffixBytes with
      | some i => (0, some (c.prefixBytes.length + i + c.suffixBytes.length))
      | none =>
        if data.length ≥ c.msgBufferSize then (0, firstMsgLen)
        else (defaultMaxTransferSize, firstMsgLen)
    else (defaultMaxTransferSize, firstMsgLen)

/-- What the loop of `parse_msg` ends with. -/
structure Parsed where
  unpackOk : Bool
  pnext : Nat
  firstMsgLen : Option Nat
  remainLen : Nat
  msgCan : List (List UInt8)

def parseLoop (raw : Buffer UInt8 c.msgBufferSize) (pnext : Nat) (firstMsgLen : Option Nat)
    (remainLen : Nat) : Except Fault Parsed :=
  match firstMsgLen with
  | none => .ok ⟨true, pnext, none, remainLen, []⟩
  | some 0 => .ok ⟨true, pnext, some 0, remainLen, []⟩
  | some (k + 1) => do
    check (k + 1 > c.minLen)
    if _h : k + 1 ≤ remainLen then
      let msg := raw.read (pnext + c.prefixBytes.length) (k + 1 - c.minLen)
      let (more, firstMsgLen) :=
        peekMsg c none (raw.read (pnext + (k + 1)) (remainLen - (k + 1)))
      if more = defaultMaxTransferSize then
        return ⟨true, pnext + (k + 1), firstMsgLen, remainLen - (k + 1), [msg]⟩
      else if firstMsgLen = none then
        return ⟨false, pnext + (k + 1), firstMsgLen, remainLen - (k + 1), [msg]⟩
      else
        let p ← parseLoop raw (pnext + (k + 1)) firstMsgLen (remainLen - (k + 1))
        return { p with msgCan := msg :: p.msgCan }
    else .error .overrun
termination_by remainLen

def parseMsg (u : PrefixSuffixUnpacker c) (bytesTransferred : Nat) :
    Except Fault (Bool × List (List UInt8) × PrefixSuffixUnpacker c) := do
  check (u.remainLen + bytesTransferred ≤ c.msgBufferSize)
  let p ← parseLoop u.rawBuff 0 u.firstMsgLen (u.remainLen + bytesTransferred)
  if p.pnext = 0 then return (false, p.msgCan, ⟨u.rawBuff, p.firstMsgLen, p.remainLen⟩)
  else if p.unpackOk ∧ p.remainLen > 0 then
    let raw ← memcpyFront u.rawBuff p.pnext p.remainLen
    return (true, p.msgCan, ⟨raw, p.firstMsgLen, p.remainLen⟩)
  else return (p.unpackOk, p.msgCan, ⟨u.rawBuff, p.firstMsgLen, p.remainLen⟩)

def completionCondition (u : PrefixSuffixUnpacker c) (bytesTransferred : Nat) :
    Except Fault (Nat × PrefixSuffixUnpacker c) := do
  let dataLen := u.remainLen + bytesTransferred
  check (dataLen ≤ c.msgBufferSize)
  let (more, firstMsgLen) := peekMsg c u.firstMsgLen (u.rawBuff.read 0 dataLen)
  return (more, { u with firstMsgLen := firstMsgLen })

def prepareNextRecv (u : PrefixSuffixUnpacker c) : Except Fault Nat := do
  check (u.remainLen < c.msgBufferSize)
  return c.msgBufferSize - u.remainLen

def fill (u : PrefixSuffixUnpacker c) (i : Nat) (data : List UInt8) :
    Except Fault (PrefixSuffixUnpacker c) := do
  let raw ← writeAt u.rawBuff (u.remainLen + i) data
  return { u with rawBuff := raw }

def resetState (raw : Buffer UInt8 c.msgBufferSize) : PrefixSuffixUnpacker c := ⟨raw, none, 0⟩

def interface (c : PrefixSuffixConfig) : IUnpacker (PrefixSuffixUnpacker c) (List UInt8) where
  parseMsg := parseMsg
  completionCondition := completionCondition
  prepareNextRecv := prepareNextRecv
  fill := fill

/-! ## `memmem` -/

theorem memmemLoop_eq_some {sub : List UInt8} {k i : Nat} {mem : List UInt8}
    (hk : k + sub.length ≤ mem.length + 1) :
    memmemLoop sub k mem = some i ↔ i < k ∧ FirstAt sub mem i := by
  induction k generalizing mem i with
  | zero => simp [memmemLoop]
  | succ k ih =>
    rw [memmemLoop]
    by_cases hhere : sub <+: mem
    · rw [if_pos (List.prefix_iff_eq_take.mp hhere).symm]
      constructor
      · rintro ⟨⟩
        exact ⟨Nat.succ_pos k, FirstAt.zero_iff.mpr hhere⟩
      · rintro ⟨_, h⟩
        rw [h.unique (FirstAt.zero_iff.mpr hhere)]
    · rw [if_neg fun h => hhere (List.prefix_iff_eq_take.mpr h.symm)]
      cases mem with
      | nil =>
        rw [List.length_nil] at hk
        have hnil : sub = [] := List.length_eq_zero_iff.mp (by omega)
        exact absurd (hnil ▸ List.nil_prefix) hhere
      | cons a mem =>
        rw [List.length_cons] at hk
        rw [List.tail_cons, Option.map_eq_some_iff, FirstAt.cons_iff hhere]
        constructor
        · rintro ⟨j, hj, rfl⟩
          obtain ⟨hlt, hfirst⟩ := (ih (by omega)).mp hj
          exact ⟨Nat.succ_lt_succ hlt, j, rfl, hfirst⟩
        · rintro ⟨hlt, j, rfl, hfirst⟩
          exact ⟨j, (ih (by omega)).mpr ⟨Nat.lt_of_succ_lt_succ hlt, hfirst⟩, rfl⟩

/-- `memmem` finds the first occurrence. -/
theorem memmem_eq_some {mem sub : List UInt8} {i : Nat} (hne : sub ≠ []) :
    memmem mem sub = some i ↔ FirstAt sub mem i := by
  unfold memmem
  split
  · rename_i hle
    rw [memmemLoop_eq_some (by omega)]
    refine ⟨fun h => h.2, fun h => ⟨?_, h⟩⟩
    have hfit := h.le_length hne
    omega
  · rename_i hlt
    constructor
    · intro h
      cases h
    · intro h
      have hfit := h.le_length hne
      omega

/-! ## The framer it follows -/

/-- Why a stream cannot be cut any further. -/
inductive Reason
  /-- it does not start with the prefix -/
  | malformed
  /-- the suffix comes at once -/
  | emptyBody
  /-- no suffix in the first `MSG_BUFFER_SIZE` bytes -/
  | tooLong
  deriving DecidableEq, Repr

/-- Where `peek_msg` looks for the suffix. -/
def searched (c : PrefixSuffixConfig) (s : List UInt8) : List UInt8 :=
  (s.take c.msgBufferSize).drop c.prefixBytes.length

/-- A stream by its front, which starts with the prefix. -/
def nextBody (c : PrefixSuffixConfig) (s : List UInt8) : Verdict (List UInt8) Reason :=
  match memmem (searched c s) c.suffixBytes with
  | some 0 => if s.length > c.minLen then .stop .emptyBody else .more
  | some (i + 1) => .message ((s.drop c.prefixBytes.length).take (i + 1)) (i + 1 + c.minLen)
  | none => if s.length ≥ c.msgBufferSize then .stop .tooLong else .more

def next (c : PrefixSuffixConfig) (s : List UInt8) : Verdict (List UInt8) Reason :=
  if s.length < c.prefixBytes.length then .more
  else if s.take c.prefixBytes.length = c.prefixBytes then nextBody c s
  else .stop .malformed

/-- The prefix is there. -/
def Begins (c : PrefixSuffixConfig) (s : List UInt8) : Prop :=
  ¬ s.length < c.prefixBytes.length ∧ s.take c.prefixBytes.length = c.prefixBytes

theorem next_short {s : List UInt8} (h : s.length < c.prefixBytes.length) : next c s = .more :=
  if_pos h

theorem next_malformed {s : List UInt8} (h : ¬ s.length < c.prefixBytes.length)
    (hne : s.take c.prefixBytes.length ≠ c.prefixBytes) : next c s = .stop .malformed := by
  rw [next, if_neg h, if_neg hne]

theorem next_begins {s : List UInt8} (h : Begins c s) : next c s = nextBody c s := by
  rw [next, if_neg h.1, if_pos h.2]

theorem Begins.append {s : List UInt8} (t : List UInt8) (h : Begins c s) : Begins c (s ++ t) := by
  obtain ⟨hlen, htake⟩ := h
  constructor
  · rw [List.length_append]
    omega
  · rw [List.take_append_of_le_length (Nat.not_lt.mp hlen), htake]

theorem minLen_lt (c : PrefixSuffixConfig) : c.minLen < c.msgBufferSize := c.length_lt

theorem suffix_length_pos (c : PrefixSuffixConfig) : 0 < c.suffixBytes.length :=
  List.length_pos_iff.mpr c.suffix_ne

theorem length_searched (s : List UInt8) :
    (searched c s).length = min c.msgBufferSize s.length - c.prefixBytes.length := by
  rw [searched, List.length_drop, List.length_take]

theorem searched_append (s t : List UInt8) (h : ¬ s.length < c.prefixBytes.length) :
    searched c (s ++ t) = searched c s ++ t.take (c.msgBufferSize - s.length) := by
  have hlt := c.length_lt
  rw [searched, List.take_append, List.drop_append_of_le_length, searched]
  rw [List.length_take]
  omega

theorem searched_full (s t : List UInt8) (h : c.msgBufferSize ≤ s.length) :
    searched c (s ++ t) = searched c s := by
  rw [searched, List.take_append_of_le_length h, searched]

/-- Where the suffix ends, when it has been found at `i`. -/
theorem found_le {s : List UInt8} {i : Nat} (hb : Begins c s)
    (h : memmem (searched c s) c.suffixBytes = some i) :
    i + c.minLen ≤ s.length ∧ i + c.minLen ≤ c.msgBufferSize := by
  have hfirst := ((memmem_eq_some c.suffix_ne).mp h).le_length c.suffix_ne
  have hpos := suffix_length_pos c
  have hlen := hb.1
  rw [length_searched] at hfirst
  unfold PrefixSuffixConfig.minLen
  omega

theorem found_append {s : List UInt8} {i : Nat} (t : List UInt8) (hb : Begins c s)
    (h : memmem (searched c s) c.suffixBytes = some i) :
    memmem (searched c (s ++ t)) c.suffixBytes = some i := by
  rw [memmem_eq_some c.suffix_ne] at h ⊢
  rw [searched_append s t hb.1]
  exact h.append c.suffix_ne _

theorem next_eq_message {s m : List UInt8} {n : Nat} (h : next c s = .message m n) :
    Begins c s ∧ ∃ i, memmem (searched c s) c.suffixBytes = some (i + 1) ∧
      n = i + 1 + c.minLen ∧ m = (s.drop c.prefixBytes.length).take (i + 1) := by
  by_cases hlen : s.length < c.prefixBytes.length
  · cases (next_short hlen).symm.trans h
  · by_cases htake : s.take c.prefixBytes.length = c.prefixBytes
    · rw [next_begins ⟨hlen, htake⟩, nextBody] at h
      split at h
      · split at h <;> cases h
      · rename_i i hi
        cases h
        exact ⟨⟨hlen, htake⟩, i, hi, rfl, rfl⟩
      · split at h <;> cases h
    · cases (next_malformed hlen htake).symm.trans h

theorem next_eq_stop {s : List UInt8} {e : Reason} (h : next c s = .stop e) :
    (e = .malformed ∧ ¬ s.length < c.prefixBytes.length ∧
      s.take c.prefixBytes.length ≠ c.prefixBytes) ∨
    (e = .emptyBody ∧ Begins c s ∧ memmem (searched c s) c.suffixBytes = some 0 ∧
      c.minLen < s.length) ∨
    (e = .tooLong ∧ Begins c s ∧ memmem (searched c s) c.suffixBytes = none ∧
      c.msgBufferSize ≤ s.length) := by
  by_cases hlen : s.length < c.prefixBytes.length
  · cases (next_short hlen).symm.trans h
  · by_cases htake : s.take c.prefixBytes.length = c.prefixBytes
    · rw [next_begins ⟨hlen, htake⟩, nextBody] at h
      split at h
      · rename_i hfound
        split at h
        · rename_i hlong
          cases h
          exact .inr (.inl ⟨rfl, ⟨hlen, htake⟩, hfound, hlong⟩)
        · cases h
      · cases h
      · rename_i hfound
        split at h
        · rename_i hfull
          cases h
          exact .inr (.inr ⟨rfl, ⟨hlen, htake⟩, hfound, hfull⟩)
        · cases h
    · cases (next_malformed hlen htake).symm.trans h
      exact .inl ⟨rfl, hlen, htake⟩

def framer (c : PrefixSuffixConfig) : Framer UInt8 (List UInt8) Reason where
  next := next c
  len_pos := by
    intro s m n h
    obtain ⟨_, i, _, rfl, _⟩ := next_eq_message h
    omega
  len_le := by
    intro s m n h
    obtain ⟨hb, i, hi, rfl, _⟩ := next_eq_message h
    exact (found_le hb hi).1
  message_append := by
    intro s m n t h
    obtain ⟨hb, i, hi, rfl, rfl⟩ := next_eq_message h
    have hle := (found_le hb hi).1
    have hpos := suffix_length_pos c
    unfold PrefixSuffixConfig.minLen at hle
    rw [next_begins (hb.append t), nextBody, found_append t hb hi]
    simp only [Verdict.message.injEq, and_true]
    rw [List.drop_append_of_le_length (by omega),
      List.take_append_of_le_length (by rw [List.length_drop]; omega)]
  stop_append := by
    intro s e t h
    obtain ⟨rfl, hlen, htake⟩ | ⟨rfl, hb, hfound, hlong⟩ | ⟨rfl, hb, hfound, hfull⟩ :=
      next_eq_stop h
    · refine next_malformed ?_ ?_
      · rw [List.length_append]
        omega
      · rwa [List.take_append_of_le_length (Nat.not_lt.mp hlen)]
    · rw [next_begins (hb.append t), nextBody, found_append t hb hfound]
      exact if_pos (by rw [List.length_append]; omega)
    · rw [next_begins (hb.append t), nextBody, searched_full s t hfull, hfound]
      exact if_pos (by rw [List.length_append]; omega)

/-! ## `peek_msg` and `parse_msg` follow it -/

/-- What `peek_msg` returns, and what it leaves in `first_msg_len`. -/
def peeked (c : PrefixSuffixConfig) (data : List UInt8) : Nat × Option Nat :=
  match next c data with
  | .more =>
    (defaultMaxTransferSize, if data.length < c.prefixBytes.length then none else some 0)
  | .message _ n => (0, some n)
  | .stop .malformed => (0, none)
  | .stop .emptyBody => (0, some c.minLen)
  | .stop .tooLong => (0, some 0)

/-- `first_msg_len` agrees with the bytes `held` of a message that is not complete. -/
def Knows (c : PrefixSuffixConfig) (firstMsgLen : Option Nat) (held : List UInt8) : Prop :=
  firstMsgLen = none ∨ (Begins c held ∧ firstMsgLen = some 0)

theorem Knows.append {first : Option Nat} {held : List UInt8} (data : List UInt8)
    (h : Knows c first held) : Knows c first (held ++ data) := by
  obtain h | ⟨hb, h⟩ := h
  · exact .inl h
  · exact .inr ⟨hb.append data, h⟩

theorem searched_eq {s : List UInt8} (h : s.length ≤ c.msgBufferSize) :
    searched c s = s.drop c.prefixBytes.length := by
  rw [searched, List.take_of_length_le h]

/-- The part of `peek_msg` behind the prefix. -/
theorem peekMsg_begins {first : Option Nat} {data : List UInt8}
    (hsize : data.length ≤ c.msgBufferSize) (hb : Begins c data)
    (hknows : first = none ∨ first = some 0) : peekMsg c first data = peeked c data := by
  have hnot : ¬ (first = none ∧ data.length ≥ c.prefixBytes.length ∧
      data.take c.prefixBytes.length ≠ c.prefixBytes) := fun h => h.2.2 hb.2
  have hfirst : (if first = none ∧ data.length ≥ c.prefixBytes.length then some 0 else first) =
      some 0 := by
    obtain rfl | rfl := hknows
    · exact if_pos ⟨rfl, Nat.not_lt.mp hb.1⟩
    · exact if_neg (by simp)
  rw [peekMsg, if_neg hnot, hfirst, peeked, next_begins hb, nextBody, searched_eq hsize]
  cases hm : memmem (data.drop c.prefixBytes.length) c.suffixBytes with
  | none =>
    have hmin := minLen_lt c
    by_cases hfull : data.length ≥ c.msgBufferSize
    · simp only [if_pos hfull, if_pos (show data.length > c.minLen by omega)]
    · simp only [if_neg hfull, if_neg hb.1, ite_self]
  | some i =>
    cases i with
    | zero =>
      by_cases hlong : data.length > c.minLen
      · simp only [if_pos hlong]
        rfl
      · simp only [if_neg hlong, if_neg hb.1]
    | succ i =>
      have hle := (found_le hb ((searched_eq hsize).symm ▸ hm)).1
      have hlen : c.prefixBytes.length + (i + 1) + c.suffixBytes.length = i + 1 + c.minLen := by
        unfold PrefixSuffixConfig.minLen
        omega
      simp only [if_pos (show data.length > c.minLen by omega), hlen]

theorem peekMsg_eq {first : Option Nat} {data : List UInt8}
    (hsize : data.length ≤ c.msgBufferSize) (hknows : Knows c first data) :
    peekMsg c first data = peeked c data := by
  by_cases hlen : data.length < c.prefixBytes.length
  · have hmin : ¬ data.length > c.minLen := by
      unfold PrefixSuffixConfig.minLen
      omega
    obtain rfl | ⟨hb, _⟩ := hknows
    · rw [peekMsg, if_neg (by omega), if_neg hmin, peeked, next_short hlen, if_neg (by omega)]
      simp only [if_pos hlen]
    · exact absurd hlen hb.1
  · by_cases htake : data.take c.prefixBytes.length = c.prefixBytes
    · refine peekMsg_begins hsize ⟨hlen, htake⟩ ?_
      obtain h | ⟨_, h⟩ := hknows
      · exact .inl h
      · exact .inr h
    · obtain rfl | ⟨hb, _⟩ := hknows
      · rw [peekMsg, if_pos ⟨rfl, Nat.not_lt.mp hlen, htake⟩, peeked, next_malformed hlen htake]
      · exact absurd hb.2 htake

/-- Whether there is something to parse. -/
theorem peeked_fst (data : List UInt8) :
    (peeked c data).1 = if next c data = .more then defaultMaxTransferSize else 0 := by
  unfold peeked
  split <;> simp [*]

theorem peeked_snd {data : List UInt8} (h : next c data ≠ .more) :
    (peeked c data).2 = none ↔ next c data = .stop .malformed := by
  unfold peeked
  split <;> simp_all

theorem knows_peeked {data : List UInt8} (h : next c data = .more) :
    Knows c (peeked c data).2 data := by
  rw [peeked, h]
  by_cases hlen : data.length < c.prefixBytes.length
  · exact .inl (if_pos hlen)
  · by_cases htake : data.take c.prefixBytes.length = c.prefixBytes
    · exact .inr ⟨⟨hlen, htake⟩, if_neg hlen⟩
    · cases (next_malformed hlen htake).symm.trans h

section
variable {raw : Buffer UInt8 c.msgBufferSize} {before held : List UInt8}

/-- One round of the loop, for a message that has a body. -/
theorem parseLoop_message (pnext : Nat) {remainLen n : Nat} (hn : n > c.minLen)
    (hle : n ≤ remainLen) {peek : Nat × Option Nat}
    (hpeek : peekMsg c none (raw.read (pnext + n) (remainLen - n)) = peek) :
    parseLoop raw pnext (some n) remainLen =
      if peek.1 = defaultMaxTransferSize then
        .ok ⟨true, pnext + n, peek.2, remainLen - n,
          [raw.read (pnext + c.prefixBytes.length) (n - c.minLen)]⟩
      else if peek.2 = none then
        .ok ⟨false, pnext + n, peek.2, remainLen - n,
          [raw.read (pnext + c.prefixBytes.length) (n - c.minLen)]⟩
      else (parseLoop raw (pnext + n) peek.2 (remainLen - n)).map fun p => { p with
        msgCan := raw.read (pnext + c.prefixBytes.length) (n - c.minLen) :: p.msgCan } := by
  obtain ⟨k, rfl⟩ : ∃ k, n = k + 1 := ⟨n - 1, by omega⟩
  rw [parseLoop]
  simp only [check_of hn, bind, Except.bind, dif_pos hle, hpeek]
  rfl

theorem parseLoop_emptyBody (pnext remainLen : Nat) :
    parseLoop raw pnext (some c.minLen) remainLen = .error .assertion := by
  have hpos := suffix_length_pos c
  obtain ⟨k, hk⟩ : ∃ k, c.minLen = k + 1 :=
    ⟨c.minLen - 1, by unfold PrefixSuffixConfig.minLen; omega⟩
  rw [hk, parseLoop]
  simp only [check_of_not (show ¬ k + 1 > c.minLen by omega), bind, Except.bind]

/-- What the loop does with the bytes `held`, which start at `start`. -/
structure ParseSpec (start : Nat) (held : List UInt8) (p : Parsed) : Prop where
  msgCan : p.msgCan = ((framer c).cut held).messages
  remainLen : p.remainLen = ((framer c).cut held).rest.length
  pnext : p.pnext + p.remainLen = start + held.length
  first : ((framer c).cut held).stop = none →
    p.firstMsgLen = (peeked c ((framer c).cut held).rest).2
  ok : ((framer c).cut held).stop = none → p.unpackOk = true
  fails : ((framer c).cut held).stop ≠ none → p.unpackOk = false ∨ p.msgCan = []

/-- The same with the assertion, which a message without a body trips over. -/
def LoopSpec (c : PrefixSuffixConfig) (start : Nat) (held : List UInt8)
    (r : Except Fault Parsed) : Prop :=
  (((framer c).cut held).stop = some .emptyBody ∧ r = .error .assertion) ∨
    (((framer c).cut held).stop ≠ some .emptyBody ∧
      ∃ p, r = .ok p ∧ ParseSpec (c := c) start held p)

theorem LoopSpec.of_stop {e : Reason} (start : Nat) (first : Option Nat)
    (hcut : (framer c).cut held = ⟨[], held, some e⟩) (he : e ≠ .emptyBody) :
    LoopSpec c start held (.ok ⟨true, start, first, held.length, []⟩) := by
  refine .inr ⟨?_, _, rfl, ?_⟩
  · rw [hcut]
    exact fun h => he (Option.some.inj h)
  · constructor
    · rw [hcut]
    · rw [hcut]
    · rfl
    · rw [hcut]
      exact fun h => by cases h
    · exact fun _ => rfl
    · exact fun _ => .inr rfl

/-- One message received, and the loop ends. -/
theorem LoopSpec.last {m : List UInt8} {n : Nat} {stop : Option Reason} {ok : Bool}
    {first : Option Nat} {start : Nat} (hcut : (framer c).cut held = ⟨[m], held.drop n, stop⟩)
    (hle : n ≤ held.length) (hstop : stop ≠ some .emptyBody)
    (hgo : stop = none → ok = true ∧ first = (peeked c (held.drop n)).2)
    (hfail : stop ≠ none → ok = false) :
    LoopSpec c start held (.ok ⟨ok, start + n, first, held.length - n, [m]⟩) := by
  refine .inr ⟨by rw [hcut]; exact hstop, _, rfl, ?_⟩
  constructor
  · rw [hcut]
  · rw [hcut, List.length_drop]
  · simp only
    omega
  · rw [hcut]
    exact fun h => (hgo h).2
  · rw [hcut]
    exact fun h => (hgo h).1
  · rw [hcut]
    exact fun h => .inl (hfail h)

/-- One message received, and the loop goes on. -/
theorem LoopSpec.cons {m : List UInt8} {n : Nat} {r : Except Fault Parsed}
    (hs : next c held = .message m n) (hle : held.length ≤ c.msgBufferSize)
    (hmal : next c (held.drop n) ≠ .stop .malformed)
    (hr : LoopSpec c (before.length + n) (held.drop n) r) :
    LoopSpec c before.length held (r.map fun p => { p with msgCan := m :: p.msgCan }) := by
  have hcut : (framer c).cut held = _ := Framer.cut_message hs
  have hshort := Framer.length_drop_lt (framer c) hs
  have hn := (framer c).len_le hs
  obtain ⟨hstop, rfl⟩ | ⟨hstop, p, rfl, hp⟩ := hr
  · exact .inl ⟨by rw [hcut]; exact hstop, rfl⟩
  · refine .inr ⟨by rw [hcut]; exact hstop, _, rfl, ?_⟩
    constructor
    · rw [hcut]
      exact congrArg (m :: ·) hp.msgCan
    · rw [hcut]
      exact hp.remainLen
    · have hnext := hp.pnext
      rw [List.length_drop] at hnext
      simp only
      omega
    · rw [hcut]
      exact hp.first
    · rw [hcut]
      exact hp.ok
    · rw [hcut]
      intro hne
      obtain hok | hnil := hp.fails hne
      · exact .inl hok
      · -- the rest would have to be stopped at once, which it is not for being too long
        exfalso
        cases hnext : next c (held.drop n) with
        | more => exact hne (by rw [Framer.cut_more hnext])
        | message m' n' =>
          have hmsgs := hp.msgCan
          rw [hnil, Framer.cut_message hnext] at hmsgs
          cases hmsgs
        | stop e =>
          obtain ⟨rfl, _⟩ | ⟨rfl, _⟩ | ⟨rfl, _, _, hfull⟩ := next_eq_stop hnext
          · exact hmal hnext
          · exact hstop (by rw [Framer.cut_stop hnext])
          · omega

/-- A round that takes a message off, given what the next one does. -/
theorem LoopSpec.message (h : raw.Holds (before ++ held)) {m : List UInt8} {n : Nat}
    (hs : next c held = .message m n)
    (hrest : next c (held.drop n) ≠ .more → LoopSpec c (before.length + n) (held.drop n)
      (parseLoop raw (before.length + n) (peeked c (held.drop n)).2 (held.length - n))) :
    LoopSpec c before.length held (parseLoop raw before.length (some n) held.length) := by
  have hsize := h.length_le
  rw [List.length_append] at hsize
  obtain ⟨hb, i, hi, hn, hm⟩ := next_eq_message hs
  have hle := (framer c).len_le hs
  have hpre : c.prefixBytes.length ≤ c.minLen := Nat.le_add_right _ _
  have hmsg : raw.read (before.length + c.prefixBytes.length) (n - c.minLen) = m := by
    rw [h.read (by rw [List.length_append]; omega), List.drop_length_add_append, hm,
      show n - c.minLen = i + 1 by omega]
  have hread : raw.read (before.length + n) (held.length - n) = held.drop n := by
    rw [h.read (by rw [List.length_append]; omega), List.drop_length_add_append,
      List.take_of_length_le (Nat.le_of_eq List.length_drop)]
  have hpeek : peekMsg c none (raw.read (before.length + n) (held.length - n)) =
      peeked c (held.drop n) := by
    rw [hread]
    exact peekMsg_eq (by rw [List.length_drop]; omega) (.inl rfl)
  have hcut : (framer c).cut held = _ := Framer.cut_message hs
  rw [parseLoop_message _ (by omega) hle hpeek, hmsg]
  by_cases hmore : next c (held.drop n) = .more
  · have hnone : (framer c).cut (held.drop n) = _ := Framer.cut_more hmore
    rw [hnone] at hcut
    rw [if_pos (by rw [peeked_fst, if_pos hmore])]
    exact LoopSpec.last hcut hle (by simp) (fun _ => ⟨rfl, rfl⟩) (fun hne => absurd rfl hne)
  · rw [if_neg (by rw [peeked_fst, if_neg hmore]; decide)]
    by_cases hmal : next c (held.drop n) = .stop .malformed
    · have hstop : (framer c).cut (held.drop n) = _ := Framer.cut_stop hmal
      rw [hstop] at hcut
      rw [if_pos ((peeked_snd hmore).mpr hmal)]
      exact LoopSpec.last hcut hle (by simp) (fun hnone => by cases hnone) (fun _ => rfl)
    · rw [if_neg (mt (peeked_snd hmore).mp hmal)]
      exact LoopSpec.cons hs (by omega) hmal (hrest hmore)

theorem parseLoop_spec (h : raw.Holds (before ++ held)) (hnext : next c held ≠ .more) :
    LoopSpec c before.length held
      (parseLoop raw before.length (peeked c held).2 held.length) := by
  induction hk : held.length using Nat.strongRecOn generalizing held before with
  | ind k ih =>
    subst hk
    cases hs : next c held with
    | more => exact absurd hs hnext
    | stop e =>
      have hcut : (framer c).cut held = _ := Framer.cut_stop hs
      cases e with
      | malformed =>
        have hfirst : (peeked c held).2 = none := by rw [peeked, hs]
        rw [hfirst, parseLoop]
        exact LoopSpec.of_stop _ _ hcut (by simp)
      | emptyBody =>
        have hfirst : (peeked c held).2 = some c.minLen := by rw [peeked, hs]
        rw [hfirst, parseLoop_emptyBody]
        exact .inl ⟨by rw [hcut], rfl⟩
      | tooLong =>
        have hfirst : (peeked c held).2 = some 0 := by rw [peeked, hs]
        rw [hfirst, parseLoop]
        exact LoopSpec.of_stop _ _ hcut (by simp)
    | message m n =>
      have hfirst : (peeked c held).2 = some n := by rw [peeked, hs]
      have hle := (framer c).len_le hs
      rw [hfirst]
      refine LoopSpec.message h hs fun hmore => ?_
      have hsplit : raw.Holds ((before ++ held.take n) ++ held.drop n) := by
        rwa [List.append_assoc, List.take_append_drop]
      have hrest := ih _ (Framer.length_drop_lt (framer c) hs) hsplit hmore rfl
      rwa [List.length_append, List.length_take, Nat.min_eq_left hle, List.length_drop] at hrest

theorem ParseSpec.split {p : Parsed} (hp : ParseSpec (c := c) 0 held p) :
    ∃ before, before.length = p.pnext ∧ before ++ ((framer c).cut held).rest = held := by
  obtain ⟨before, hbefore⟩ := Framer.rest_suffix (f := framer c) held
  refine ⟨before, ?_, hbefore⟩
  have hlen := congrArg List.length hbefore
  have hnext := hp.pnext
  rw [List.length_append] at hlen
  rw [hp.remainLen] at hnext
  omega

end

section
variable {u : PrefixSuffixUnpacker c} {n : Nat} {held : List UInt8}

/-- The completion condition has looked at `held`. -/
def Ready (u : PrefixSuffixUnpacker c) (held : List UInt8) : Prop :=
  u.firstMsgLen = (peeked c held).2

theorem parseLoop_ready (hholds : u.rawBuff.Holds held) (hready : Ready u held)
    (hnext : next c held ≠ .more) :
    LoopSpec c 0 held (parseLoop u.rawBuff 0 u.firstMsgLen held.length) := by
  rw [hready]
  exact parseLoop_spec (show u.rawBuff.Holds ([] ++ held) from hholds) hnext

theorem parseMsg_aborts (hholds : u.rawBuff.Holds held) (hlen : u.remainLen + n = held.length)
    (hready : Ready u held) (hnext : next c held ≠ .more)
    (hstop : ((framer c).cut held).stop = some .emptyBody) :
    u.parseMsg n = .error .assertion := by
  obtain ⟨_, hloop⟩ | ⟨hne, _⟩ := parseLoop_ready hholds hready hnext
  · simp only [parseMsg, hlen, check_of hholds.length_le, bind, Except.bind, hloop]
  · exact absurd hstop hne

theorem parseMsg_ok (hholds : u.rawBuff.Holds held) (hlen : u.remainLen + n = held.length)
    (hready : Ready u held) (hnext : next c held ≠ .more)
    (hstop : ((framer c).cut held).stop = none) :
    ∃ u', u.parseMsg n = .ok (true, ((framer c).cut held).messages, u') ∧
      u'.rawBuff.Holds ((framer c).cut held).rest ∧
      u'.remainLen = ((framer c).cut held).rest.length ∧
      Knows c u'.firstMsgLen ((framer c).cut held).rest := by
  obtain ⟨hempty, _⟩ | ⟨_, p, hloop, hp⟩ := parseLoop_ready hholds hready hnext
  · cases hstop.symm.trans hempty
  · obtain ⟨before, hbefore, hsplit⟩ := hp.split
    have hmoved : p.pnext ≠ 0 := by
      have hsum := hp.pnext
      rw [hp.remainLen] at hsum
      cases hs : next c held with
      | more => exact absurd hs hnext
      | stop e =>
        rw [Framer.cut_stop hs] at hstop
        cases hstop
      | message m k =>
        have hlt := Framer.length_rest_lt (f := framer c) hs
        omega
    have hknows : Knows c p.firstMsgLen ((framer c).cut held).rest := by
      rw [hp.first hstop]
      exact knows_peeked (Framer.next_rest_of_none hstop)
    by_cases hrest : p.remainLen > 0
    · obtain ⟨raw, hcopy, hraw⟩ := memcpyFront_holds (hsplit ▸ hholds)
      rw [hbefore, ← hp.remainLen] at hcopy
      refine ⟨⟨raw, p.firstMsgLen, p.remainLen⟩, ?_, hraw, hp.remainLen, hknows⟩
      simp only [parseMsg, hlen, check_of hholds.length_le, bind, Except.bind, hloop,
        if_neg hmoved, hp.ok hstop, hrest, and_self, if_true, hcopy, hp.msgCan]
      rfl
    · refine ⟨⟨u.rawBuff, p.firstMsgLen, p.remainLen⟩, ?_, ?_, hp.remainLen, hknows⟩
      · simp only [parseMsg, hlen, check_of hholds.length_le, bind, Except.bind, hloop,
          if_neg hmoved, hp.ok hstop, hrest, and_false, if_false, hp.msgCan]
        rfl
      · have hnil : ((framer c).cut held).rest = [] := by
          rw [← List.length_eq_zero_iff, ← hp.remainLen]
          omega
        rw [hnil]
        exact u.rawBuff.holds_nil

theorem parseMsg_fails (hholds : u.rawBuff.Holds held) (hlen : u.remainLen + n = held.length)
    (hready : Ready u held) (hnext : next c held ≠ .more) {e : Reason}
    (hstop : ((framer c).cut held).stop = some e) (he : e ≠ .emptyBody) :
    ∃ u', u.parseMsg n = .ok (false, ((framer c).cut held).messages, u') ∧
      u'.remainLen = ((framer c).cut held).rest.length := by
  obtain ⟨hempty, _⟩ | ⟨_, p, hloop, hp⟩ := parseLoop_ready hholds hready hnext
  · exact absurd (Option.some.inj (hstop.symm.trans hempty)) he
  · refine ⟨⟨u.rawBuff, p.firstMsgLen, p.remainLen⟩, ?_, hp.remainLen⟩
    by_cases hmoved : p.pnext = 0
    · simp only [parseMsg, hlen, check_of hholds.length_le, bind, Except.bind, hloop,
        if_pos hmoved, hp.msgCan]
      rfl
    · have hok : p.unpackOk = false := by
        obtain hok | hnil := hp.fails (by rw [hstop]; simp)
        · exact hok
        · exfalso
          cases hs : next c held with
          | more => exact hnext hs
          | stop e' =>
            have hsum := hp.pnext
            rw [hp.remainLen, Framer.cut_stop hs] at hsum
            exact hmoved (by simp only at hsum; omega)
          | message m k =>
            have hmsgs := hp.msgCan
            rw [hnil, Framer.cut_message hs] at hmsgs
            cases hmsgs
      simp only [parseMsg, hlen, check_of hholds.length_le, bind, Except.bind, hloop,
        if_neg hmoved, hok, Bool.false_eq_true, false_and, if_false, hp.msgCan]
      rfl

theorem completionCondition_eq (hholds : u.rawBuff.Holds held)
    (hlen : u.remainLen + n = held.length) (hknows : Knows c u.firstMsgLen held) :
    u.completionCondition n =
      .ok ((peeked c held).1, { u with firstMsgLen := (peeked c held).2 }) := by
  have hread : u.rawBuff.read 0 held.length = held := by
    rw [hholds.read (by omega), List.drop_zero, List.take_length]
  simp only [completionCondition, hlen, check_of hholds.length_le, bind, Except.bind, hread,
    peekMsg_eq hholds.length_le hknows]
  rfl

end

theorem next_nil : next c [] = .more := by
  by_cases hlen : ([] : List UInt8).length < c.prefixBytes.length
  · exact next_short hlen
  · have hpos := suffix_length_pos c
    have hmin := minLen_lt c
    have hnil : c.prefixBytes = [] := List.length_eq_zero_iff.mp (Nat.eq_zero_of_not_pos hlen)
    have hfound : memmem (searched c []) c.suffixBytes = none := by
      rw [searched, List.take_nil, List.drop_nil]
      exact if_neg (Nat.not_le.mpr hpos)
    have hfull : ¬ ([] : List UInt8).length ≥ c.msgBufferSize := by
      rw [List.length_nil]
      omega
    rw [next_begins ⟨hlen, by rw [List.take_nil, hnil]⟩, nextBody, hfound]
    exact if_neg hfull

theorem not_more_of_full {held : List UInt8} (h : held.length = c.msgBufferSize) :
    next c held ≠ .more := by
  intro hmore
  have hlt := c.length_lt
  have hlen : ¬ held.length < c.prefixBytes.length := by omega
  by_cases htake : held.take c.prefixBytes.length = c.prefixBytes
  · rw [next_begins ⟨hlen, htake⟩, nextBody] at hmore
    split at hmore
    · rw [if_pos (by have hmin := minLen_lt c; omega)] at hmore
      cases hmore
    · cases hmore
    · rw [if_pos (Nat.le_of_eq h.symm)] at hmore
      cases hmore
  · cases (next_malformed hlen htake).symm.trans hmore

def buffered (c : PrefixSuffixConfig) :
    Buffered (interface c) (framer c) c.msgBufferSize (· = .emptyBody) where
  size_pos := Nat.lt_of_le_of_lt (Nat.zero_le _) c.length_lt
  rawBuff := rawBuff
  remainLen := remainLen
  knows := fun u held => Knows c u.firstMsgLen held
  ready := Ready
  more := next_nil
  not_more := not_more_of_full
  knows_append := fun data _ h => h.append data
  prepareNextRecv := by
    intro u h
    simp only [interface, prepareNextRecv, check_of h, bind, Except.bind]
    rfl
  prepareNextRecv_full := by
    intro u h
    simp only [interface, prepareNextRecv, check_of_not (Nat.not_lt.mpr (Nat.le_of_eq h.symm)),
      bind, Except.bind]
  fill := by
    intro u i data raw h
    refine ⟨{ u with rawBuff := raw }, ?_, rfl, rfl, fun _ h => h⟩
    simp only [interface, fill, h, bind, Except.bind]
    rfl
  completes := by
    intro u n h
    simp only [interface, completionCondition, check_of h, bind, Except.bind]
    exact ⟨_, rfl⟩
  completion_more := by
    intro u n held hholds hlen hknows hmore
    have hpeek : (peeked c held).1 = defaultMaxTransferSize :=
      (peeked_fst held).trans (if_pos hmore)
    refine ⟨{ u with firstMsgLen := (peeked c held).2 }, ?_, rfl, rfl, knows_peeked hmore⟩
    rw [← hpeek]
    exact completionCondition_eq hholds hlen hknows
  completion_ready := by
    intro u n held hholds hlen hknows hmore
    have hpeek : (peeked c held).1 = 0 := (peeked_fst held).trans (if_neg hmore)
    refine ⟨{ u with firstMsgLen := (peeked c held).2 }, ?_, rfl, rfl, rfl⟩
    rw [← hpeek]
    exact completionCondition_eq hholds hlen hknows
  parse := parseMsg_ok
  parse_fails := fun hholds hlen hready hnext hstop he =>
    parseMsg_fails hholds hlen hready hnext hstop he
  parse_aborts := fun hholds hlen hready hnext hstop he =>
    parseMsg_aborts hholds hlen hready hnext (he ▸ hstop)

end PrefixSuffixUnpacker

end AsioTcp.Wrapper
