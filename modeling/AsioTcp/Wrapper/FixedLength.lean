import AsioTcp.Wrapper.Buffered

/-!
# `fixed_length_unpacker`

Messages are all of one length and have no head, so every stream can be cut.
-/

namespace AsioTcp.Wrapper

open StreamFramer

/-- `MSG_BUFFER_SIZE`, and what `fixed_length` has been called with. -/
structure FixedConfig where
  msgBufferSize : Nat
  fixedLength : Nat
  fixedLength_pos : 0 < fixedLength
  fixedLength_le : fixedLength ≤ msgBufferSize

structure FixedLengthUnpacker (c : FixedConfig) where
  rawBuff : Buffer UInt8 c.msgBufferSize
  remainLen : Nat

namespace FixedLengthUnpacker

variable {c : FixedConfig}

/-- The loop of `parse_msg`: the messages, and the new `pnext` and `remain_len`. -/
def parseLoop (raw : Buffer UInt8 c.msgBufferSize) (pnext remainLen : Nat) :
    List (List UInt8) × Nat × Nat :=
  if remainLen ≥ c.fixedLength then
    let p := parseLoop raw (pnext + c.fixedLength) (remainLen - c.fixedLength)
    (raw.read pnext c.fixedLength :: p.1, p.2)
  else ([], pnext, remainLen)
termination_by remainLen
decreasing_by
  have hpos := c.fixedLength_pos
  omega

def parseMsg (u : FixedLengthUnpacker c) (bytesTransferred : Nat) :
    Except Fault (Bool × List (List UInt8) × FixedLengthUnpacker c) := do
  check (u.remainLen + bytesTransferred ≤ c.msgBufferSize)
  let (msgs, pnext, remainLen) := parseLoop u.rawBuff 0 (u.remainLen + bytesTransferred)
  if pnext = 0 then return (false, msgs, ⟨u.rawBuff, remainLen⟩)
  else if remainLen > 0 then
    let raw ← memcpyFront u.rawBuff pnext remainLen
    return (true, msgs, ⟨raw, remainLen⟩)
  else return (true, msgs, ⟨u.rawBuff, remainLen⟩)

def completionCondition (u : FixedLengthUnpacker c) (bytesTransferred : Nat) :
    Except Fault (Nat × FixedLengthUnpacker c) := do
  let dataLen := u.remainLen + bytesTransferred
  check (dataLen ≤ c.msgBufferSize)
  return (if dataLen ≥ c.fixedLength then 0 else defaultMaxTransferSize, u)

def prepareNextRecv (u : FixedLengthUnpacker c) : Except Fault Nat := do
  check (u.remainLen < c.msgBufferSize)
  return c.msgBufferSize - u.remainLen

def fill (u : FixedLengthUnpacker c) (i : Nat) (data : List UInt8) :
    Except Fault (FixedLengthUnpacker c) := do
  let raw ← writeAt u.rawBuff (u.remainLen + i) data
  return { u with rawBuff := raw }

def resetState (raw : Buffer UInt8 c.msgBufferSize) : FixedLengthUnpacker c := ⟨raw, 0⟩

def interface (c : FixedConfig) : IUnpacker (FixedLengthUnpacker c) (List UInt8) where
  parseMsg := parseMsg
  completionCondition := completionCondition
  prepareNextRecv := prepareNextRecv
  fill := fill

/-! ## The framer it follows -/

def next (c : FixedConfig) (s : List UInt8) : Verdict (List UInt8) Empty :=
  if c.fixedLength ≤ s.length then .message (s.take c.fixedLength) c.fixedLength else .more

theorem next_whole {s : List UInt8} (h : c.fixedLength ≤ s.length) :
    next c s = .message (s.take c.fixedLength) c.fixedLength := if_pos h

theorem next_part {s : List UInt8} (h : ¬ c.fixedLength ≤ s.length) : next c s = .more :=
  if_neg h

theorem le_of_next_ne_more {s : List UInt8} (h : next c s ≠ .more) : c.fixedLength ≤ s.length :=
  Decidable.not_not.mp (mt next_part h)

theorem next_eq_message {s m : List UInt8} {n : Nat} (h : next c s = .message m n) :
    n = c.fixedLength ∧ n ≤ s.length ∧ m = s.take n := by
  by_cases hle : c.fixedLength ≤ s.length
  · cases (next_whole hle).symm.trans h
    exact ⟨rfl, hle, rfl⟩
  · cases (next_part hle).symm.trans h

def framer (c : FixedConfig) : Framer UInt8 (List UInt8) Empty where
  next := next c
  len_pos := fun h => (next_eq_message h).1 ▸ c.fixedLength_pos
  len_le := fun h => (next_eq_message h).2.1
  message_append := by
    intro s m n t h
    obtain ⟨rfl, hle, rfl⟩ := next_eq_message h
    rw [next_whole (by rw [List.length_append]; omega), List.take_append_of_le_length hle]
  stop_append := fun {_ e} _ _ => e.elim

theorem parseLoop_spec {raw : Buffer UInt8 c.msgBufferSize} {before held : List UInt8}
    (h : raw.Holds (before ++ held)) :
    parseLoop raw before.length held.length = (((framer c).cut held).messages,
      before.length + (held.length - ((framer c).cut held).rest.length),
      ((framer c).cut held).rest.length) := by
  induction held using Framer.cut_induction (f := framer c) generalizing before with
  | more s hs =>
    have hlt : ¬ s.length ≥ c.fixedLength := fun hle => by cases (next_whole hle).symm.trans hs
    rw [parseLoop, if_neg hlt, Framer.cut_more hs, Nat.sub_self, Nat.add_zero]
  | stop s e hs => exact e.elim
  | message s m n hs ih =>
    obtain ⟨rfl, hle, rfl⟩ := next_eq_message hs
    have hsplit : raw.Holds ((before ++ s.take c.fixedLength) ++ s.drop c.fixedLength) := by
      rwa [List.append_assoc, List.take_append_drop]
    have hstart : (before ++ s.take c.fixedLength).length = before.length + c.fixedLength := by
      rw [List.length_append, List.length_take, Nat.min_eq_left hle]
    have hread : raw.read before.length c.fixedLength = s.take c.fixedLength := by
      rw [h.read (by rw [List.length_append]; omega), List.drop_left]
    have hloop := ih hsplit
    have hrest := Framer.length_rest_le (f := framer c) (s.drop c.fixedLength)
    rw [hstart, List.length_drop] at hloop
    rw [List.length_drop] at hrest
    rw [parseLoop, if_pos hle, hloop, Framer.cut_message hs, hread]
    simp only [Prod.mk.injEq, true_and, and_true]
    omega

/-- There is a message to take off, and nothing can go wrong. -/
theorem parseMsg_ok {u : FixedLengthUnpacker c} {n : Nat} {held : List UInt8}
    (hholds : u.rawBuff.Holds held) (hlen : u.remainLen + n = held.length)
    (hnext : next c held ≠ .more) :
    ∃ u', u.parseMsg n = .ok (true, ((framer c).cut held).messages, u') ∧
      u'.rawBuff.Holds ((framer c).cut held).rest ∧
      u'.remainLen = ((framer c).cut held).rest.length := by
  have hsize := hholds.length_le
  have hle := le_of_next_ne_more hnext
  have hshorter := Framer.length_rest_lt (f := framer c) (next_whole hle)
  have hloop := parseLoop_spec (show u.rawBuff.Holds ([] ++ held) from hholds)
  rw [List.length_nil, Nat.zero_add] at hloop
  have hmoved : held.length - ((framer c).cut held).rest.length ≠ 0 := by omega
  by_cases hrest : ((framer c).cut held).rest.length > 0
  · obtain ⟨before, hsplit⟩ := Framer.rest_suffix (f := framer c) held
    have hbefore : before.length = held.length - ((framer c).cut held).rest.length := by
      have hsum := congrArg List.length hsplit
      rw [List.length_append] at hsum
      omega
    obtain ⟨raw, hcopy, hraw⟩ := memcpyFront_holds (hsplit ▸ hholds)
    rw [hbefore] at hcopy
    refine ⟨⟨raw, _⟩, ?_, hraw, rfl⟩
    simp only [parseMsg, hlen, check_of hsize, bind, Except.bind, hloop, if_neg hmoved,
      if_pos hrest, hcopy]
    rfl
  · refine ⟨⟨u.rawBuff, _⟩, ?_, ?_, rfl⟩
    · simp only [parseMsg, hlen, check_of hsize, bind, Except.bind, hloop, if_neg hmoved,
        if_neg hrest]
      rfl
    · rw [List.length_eq_zero_iff.mp (Nat.eq_zero_of_not_pos hrest)]
      exact u.rawBuff.holds_nil

def buffered (c : FixedConfig) :
    Buffered (interface c) (framer c) c.msgBufferSize (fun _ => False) where
  size_pos := Nat.lt_of_lt_of_le c.fixedLength_pos c.fixedLength_le
  rawBuff := rawBuff
  remainLen := remainLen
  knows := fun _ _ => True
  ready := fun _ _ => True
  more := next_part (Nat.not_le.mpr c.fixedLength_pos)
  not_more := by
    intro held h hmore
    cases (next_whole (h ▸ c.fixedLength_le)).symm.trans hmore
  knows_append := fun _ _ h => h
  prepareNextRecv := by
    intro u h
    simp only [interface, prepareNextRecv, check_of h, bind, Except.bind]
    rfl
  prepareNextRecv_full := by
    intro u h
    simp only [interface, prepareNextRecv, check_of_not (Nat.not_lt.mpr (Nat.le_of_eq h.symm)),
      bind, Except.bind]
  fill := by
    intro u i data raw h
    refine ⟨{ u with rawBuff := raw }, ?_, rfl, rfl, fun _ h => h⟩
    simp only [interface, fill, h, bind, Except.bind]
    rfl
  completes := by
    intro u n h
    simp only [interface, completionCondition, check_of h, bind, Except.bind]
    exact ⟨_, rfl⟩
  completion_more := by
    intro u n held hholds hlen _ hmore
    have hlt : ¬ held.length ≥ c.fixedLength := by
      intro hle
      cases (next_whole hle).symm.trans hmore
    refine ⟨u, ?_, rfl, rfl, trivial⟩
    simp only [interface, completionCondition, hlen, check_of hholds.length_le, bind,
      Except.bind, if_neg hlt]
    rfl
  completion_ready := by
    intro u n held hholds hlen _ hmore
    have hle := le_of_next_ne_more hmore
    refine ⟨u, ?_, rfl, rfl, trivial⟩
    simp only [interface, completionCondition, hlen, check_of hholds.length_le, bind,
      Except.bind, if_pos hle]
    rfl
  parse := by
    intro u n held hholds hlen _ hnext _
    obtain ⟨u', hp, hraw, hrem⟩ := parseMsg_ok hholds hlen hnext
    exact ⟨u', hp, hraw, hrem, trivial⟩
  parse_fails := fun {_ _ _ e} _ _ _ _ _ _ => e.elim
  parse_aborts := fun {_ _ _ e} _ _ _ _ _ _ => e.elim

end FixedLengthUnpacker

end AsioTcp.Wrapper
