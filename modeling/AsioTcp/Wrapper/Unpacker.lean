import AsioTcp.Lib.BigEndian
import AsioTcp.Wrapper.Buffered

/-!
# `unpacker`

A message is a head of `HEAD_LEN` bytes, which holds the length of the whole in
network byte order, and a body that is not empty. `parse_msg` finds the
messages of the buffer by their positions, and the completion condition may
have read the head of the first one before it.
-/

namespace AsioTcp.Wrapper

open StreamFramer

/-- `HEAD_TYPE`, as the bytes it takes, and `MSG_BUFFER_SIZE`, which is the
size of an array. No head reads as `(size_t) -1`. -/
structure Config where
  headLen : Nat
  msgBufferSize : Nat
  headLen_pos : 0 < headLen
  headLen_le : headLen ≤ 4
  headLen_lt : headLen < msgBufferSize
  msgBufferSize_lt : msgBufferSize < 2 ^ 63
  deriving DecidableEq, Repr

namespace Config

/-- `uint16_t` and 4000 -/
def default : Config := ⟨2, 4000, by decide, by decide, by decide, by decide⟩

variable (c : Config)

/-- `HEAD_N2H` of the head in front of some bytes -/
def headN2H (bytes : List UInt8) : Nat := BigEndian.decode (bytes.take c.headLen)

/-- `cur_msg_len > MSG_BUFFER_SIZE || cur_msg_len <= HEAD_LEN` -/
def invalid (curMsgLen : Nat) : Prop := curMsgLen > c.msgBufferSize ∨ curMsgLen ≤ c.headLen

theorem invalid_iff (n : Nat) : c.invalid n ↔ n > c.msgBufferSize ∨ n ≤ c.headLen := Iff.rfl

instance (n : Nat) : Decidable (c.invalid n) := inferInstanceAs (Decidable (_ ∨ _))

end Config

structure Unpacker (c : Config) where
  rawBuff : Buffer UInt8 c.msgBufferSize
  /-- `none` is -1: the head has not been received -/
  curMsgLen : Option Nat
  remainLen : Nat
  deriving DecidableEq, Repr

namespace Unpacker

variable {c : Config}

/-- What the loop of `parse_msg` ends with. -/
structure Parsed where
  unpackOk : Bool
  pnext : Nat
  curMsgLen : Option Nat
  remainLen : Nat
  /-- `msg_can`: where each message starts, and its length -/
  msgCan : List (Nat × Nat)
  deriving DecidableEq, Repr

def parseLoop (raw : Buffer UInt8 c.msgBufferSize) (pnext : Nat) (curMsgLen : Option Nat)
    (remainLen : Nat) : Parsed :=
  match curMsgLen with
  | some n =>
    if _h : c.invalid n then ⟨false, pnext, some n, remainLen, []⟩
    else if _h : remainLen ≥ n then
      let p := parseLoop raw (pnext + n) none (remainLen - n)
      { p with msgCan := (pnext + c.headLen, n - c.headLen) :: p.msgCan }
    else ⟨true, pnext, some n, remainLen, []⟩
  | none =>
    if remainLen ≥ c.headLen then
      parseLoop raw pnext (some (BigEndian.decode (raw.read pnext c.headLen))) remainLen
    else ⟨true, pnext, none, remainLen, []⟩
termination_by 2 * remainLen + if curMsgLen.isSome then 0 else 1
decreasing_by
  · have hn : ¬ (n > c.msgBufferSize ∨ n ≤ c.headLen) := ‹_›
    simp only [Option.isSome_none, Option.isSome_some, Bool.false_eq_true, if_false, if_true]
    omega
  · exact Nat.lt_succ_self _

/-- `parse_msg` into positions -/
def parsePositions (u : Unpacker c) (bytesTransferred : Nat) : Except Fault Parsed := do
  let remainLen := u.remainLen + bytesTransferred
  check (remainLen ≤ c.msgBufferSize)
  let p := parseLoop u.rawBuff 0 u.curMsgLen remainLen
  -- there should be at least one message
  return if p.pnext = 0 then { p with unpackOk := false } else p

def parseMsg (u : Unpacker c) (bytesTransferred : Nat) :
    Except Fault (Bool × List (List UInt8) × Unpacker c) := do
  let p ← u.parsePositions bytesTransferred
  let msgs := p.msgCan.map fun m => u.rawBuff.read m.1 m.2
  if p.unpackOk ∧ p.remainLen > 0 then
    match p.msgCan.getLast? with
    | none => .error .overrun
    | some (start, len) =>
      let raw ← memcpyFront u.rawBuff (start + len) p.remainLen
      return (true, msgs, ⟨raw, p.curMsgLen, p.remainLen⟩)
  else return (p.unpackOk, msgs, ⟨u.rawBuff, p.curMsgLen, p.remainLen⟩)

def completionCondition (u : Unpacker c) (bytesTransferred : Nat) :
    Except Fault (Nat × Unpacker c) := do
  let dataLen := u.remainLen + bytesTransferred
  check (dataLen ≤ c.msgBufferSize)
  match u.curMsgLen with
  | none =>
    if dataLen ≥ c.headLen then
      let n := BigEndian.decode (u.rawBuff.read 0 c.headLen)
      if c.invalid n then return (0, { u with curMsgLen := some n })
      else return (if dataLen ≥ n then 0 else defaultMaxTransferSize, { u with curMsgLen := some n })
    else return (defaultMaxTransferSize, u)
  | some n => return (if dataLen ≥ n then 0 else defaultMaxTransferSize, u)

def prepareNextRecv (u : Unpacker c) : Except Fault Nat := do
  check (u.remainLen < c.msgBufferSize)
  return c.msgBufferSize - u.remainLen

/-- The next piece of the stream, behind what there is. -/
def fill (u : Unpacker c) (i : Nat) (data : List UInt8) : Except Fault (Unpacker c) := do
  let raw ← writeAt u.rawBuff (u.remainLen + i) data
  return { u with rawBuff := raw }

/-- The constructor, and `reset_state`. -/
def resetState (raw : Buffer UInt8 c.msgBufferSize) : Unpacker c := ⟨raw, none, 0⟩

def interface (c : Config) : IUnpacker (Unpacker c) (List UInt8) where
  parseMsg := parseMsg
  completionCondition := completionCondition
  prepareNextRecv := prepareNextRecv
  fill := fill

/-! ## The framer it follows -/

/-- A stream by its front: head and body, or a head that is no length. -/
def next (c : Config) (s : List UInt8) : Verdict (List UInt8) Unit :=
  if s.length < c.headLen then .more
  else if c.invalid (c.headN2H s) then .stop ()
  else if c.headN2H s ≤ s.length then
    .message ((s.drop c.headLen).take (c.headN2H s - c.headLen)) (c.headN2H s)
  else .more

theorem headN2H_append {s : List UInt8} (t : List UInt8) (h : ¬ s.length < c.headLen) :
    c.headN2H (s ++ t) = c.headN2H s := by
  rw [Config.headN2H, Config.headN2H, List.take_append_of_le_length (Nat.not_lt.mp h)]

theorem next_short {s : List UInt8} (h : s.length < c.headLen) : next c s = .more := if_pos h

theorem next_invalid {s : List UInt8} (h : ¬ s.length < c.headLen)
    (hi : c.invalid (c.headN2H s)) : next c s = .stop () := by
  rw [next, if_neg h, if_pos hi]

theorem next_whole {s : List UInt8} (h : ¬ s.length < c.headLen)
    (hi : ¬ c.invalid (c.headN2H s)) (hle : c.headN2H s ≤ s.length) :
    next c s = .message ((s.drop c.headLen).take (c.headN2H s - c.headLen)) (c.headN2H s) := by
  rw [next, if_neg h, if_neg hi, if_pos hle]

theorem next_part {s : List UInt8} (h : ¬ s.length < c.headLen)
    (hi : ¬ c.invalid (c.headN2H s)) (hle : ¬ c.headN2H s ≤ s.length) : next c s = .more := by
  rw [next, if_neg h, if_neg hi, if_neg hle]

/-- The four ways a stream can start. -/
theorem next_cases (c : Config) (s : List UInt8) :
    (s.length < c.headLen ∧ next c s = .more) ∨
    (¬ s.length < c.headLen ∧ c.invalid (c.headN2H s) ∧ next c s = .stop ()) ∨
    (¬ s.length < c.headLen ∧ ¬ c.invalid (c.headN2H s) ∧ c.headN2H s ≤ s.length ∧
      next c s =
        .message ((s.drop c.headLen).take (c.headN2H s - c.headLen)) (c.headN2H s)) ∨
    (¬ s.length < c.headLen ∧ ¬ c.invalid (c.headN2H s) ∧ ¬ c.headN2H s ≤ s.length ∧
      next c s = .more) := by
  by_cases h : s.length < c.headLen
  · exact .inl ⟨h, next_short h⟩
  · by_cases hi : c.invalid (c.headN2H s)
    · exact .inr (.inl ⟨h, hi, next_invalid h hi⟩)
    · by_cases hle : c.headN2H s ≤ s.length
      · exact .inr (.inr (.inl ⟨h, hi, hle, next_whole h hi hle⟩))
      · exact .inr (.inr (.inr ⟨h, hi, hle, next_part h hi hle⟩))

theorem next_eq_message {s m : List UInt8} {n : Nat} (h : next c s = .message m n) :
    ¬ s.length < c.headLen ∧ ¬ c.invalid (c.headN2H s) ∧ n = c.headN2H s ∧ n ≤ s.length ∧
      m = (s.drop c.headLen).take (n - c.headLen) := by
  obtain ⟨_, hs⟩ | ⟨_, _, hs⟩ | ⟨h₁, h₂, h₃, hs⟩ | ⟨_, _, _, hs⟩ := next_cases c s
  · cases hs.symm.trans h
  · cases hs.symm.trans h
  · cases hs.symm.trans h
    exact ⟨h₁, h₂, rfl, h₃, rfl⟩
  · cases hs.symm.trans h

theorem next_eq_stop {s : List UInt8} {e : Unit} (h : next c s = .stop e) :
    ¬ s.length < c.headLen ∧ c.invalid (c.headN2H s) := by
  obtain ⟨_, hs⟩ | ⟨h₁, h₂, _⟩ | ⟨_, _, _, hs⟩ | ⟨_, _, _, hs⟩ := next_cases c s
  · cases hs.symm.trans h
  · exact ⟨h₁, h₂⟩
  · cases hs.symm.trans h
  · cases hs.symm.trans h

def framer (c : Config) : Framer UInt8 (List UInt8) Unit where
  next := next c
  len_pos := by
    intro s m n h
    obtain ⟨_, hi, rfl, _, _⟩ := next_eq_message h
    unfold Config.invalid at hi
    omega
  len_le := fun h => (next_eq_message h).2.2.2.1
  message_append := by
    intro s m n t h
    obtain ⟨hlen, hi, rfl, hle, rfl⟩ := next_eq_message h
    have hhead := headN2H_append t hlen
    have hlen' : ¬ (s ++ t).length < c.headLen := by
      rw [List.length_append]
      omega
    rw [next_whole hlen' (by rwa [hhead]) (by rw [hhead, List.length_append]; omega), hhead,
      List.drop_append_of_le_length (Nat.not_lt.mp hlen),
      List.take_append_of_le_length (by rw [List.length_drop]; omega)]
  stop_append := by
    intro s e t h
    obtain ⟨hlen, hi⟩ := next_eq_stop h
    have hlen' : ¬ (s ++ t).length < c.headLen := by
      rw [List.length_append]
      omega
    exact next_invalid hlen' (by rwa [headN2H_append t hlen])

/-! ## `parse_msg` follows it -/

section
variable {raw : Buffer UInt8 c.msgBufferSize} {before held : List UInt8}

theorem parseLoop_short (pnext : Nat) {remainLen : Nat} (h : remainLen < c.headLen) :
    parseLoop raw pnext none remainLen = ⟨true, pnext, none, remainLen, []⟩ := by
  rw [parseLoop, if_neg (Nat.not_le.mpr h)]

theorem parseLoop_none (pnext : Nat) {remainLen : Nat} (h : c.headLen ≤ remainLen) :
    parseLoop raw pnext none remainLen =
      parseLoop raw pnext (some (BigEndian.decode (raw.read pnext c.headLen))) remainLen := by
  rw [parseLoop.eq_def raw pnext none, if_pos h]

theorem parseLoop_invalid (pnext remainLen : Nat) {n : Nat} (h : c.invalid n) :
    parseLoop raw pnext (some n) remainLen = ⟨false, pnext, some n, remainLen, []⟩ := by
  rw [parseLoop, dif_pos h]

theorem parseLoop_whole (pnext : Nat) {remainLen n : Nat} (h : ¬ c.invalid n)
    (hle : n ≤ remainLen) : parseLoop raw pnext (some n) remainLen =
      { parseLoop raw (pnext + n) none (remainLen - n) with
        msgCan := (pnext + c.headLen, n - c.headLen) ::
          (parseLoop raw (pnext + n) none (remainLen - n)).msgCan } := by
  rw [parseLoop, dif_neg h, dif_pos hle]

theorem parseLoop_part (pnext : Nat) {remainLen n : Nat} (h : ¬ c.invalid n)
    (hle : ¬ n ≤ remainLen) :
    parseLoop raw pnext (some n) remainLen = ⟨true, pnext, some n, remainLen, []⟩ := by
  rw [parseLoop, dif_neg h, dif_neg hle]

/-- Once the head is there it does not matter who reads it. -/
theorem parseLoop_head (h : raw.Holds (before ++ held)) (hlen : ¬ held.length < c.headLen) :
    parseLoop raw before.length none held.length =
      parseLoop raw before.length (some (c.headN2H held)) held.length := by
  have hle : before.length + c.headLen ≤ (before ++ held).length := by
    rw [List.length_append]
    omega
  rw [parseLoop_none _ (Nat.not_lt.mp hlen), h.read hle, List.drop_left]
  rfl

/-- What the loop does with the bytes `held`, which start at `start`. -/
structure ParseSpec (raw : Buffer UInt8 c.msgBufferSize) (start : Nat) (held : List UInt8)
    (p : Parsed) : Prop where
  unpackOk : p.unpackOk = ((framer c).cut held).stop.isNone
  remainLen : p.remainLen = ((framer c).cut held).rest.length
  pnext : p.pnext + p.remainLen = start + held.length
  msgs : (p.msgCan.map fun m => raw.read m.1 m.2) = ((framer c).cut held).messages
  last : ∀ m, p.msgCan.getLast? = some m → m.1 + m.2 = p.pnext
  noMsg : p.msgCan = [] → p.pnext = start
  curMsgLen : p.curMsgLen = none ∨
    (¬ ((framer c).cut held).rest.length < c.headLen ∧
      p.curMsgLen = some (c.headN2H ((framer c).cut held).rest))

/-- One message received. -/
theorem ParseSpec.cons {p : Parsed} (h : raw.Holds (before ++ held))
    (hi : ¬ c.invalid (c.headN2H held)) (hle : c.headN2H held ≤ held.length)
    (hcut : (framer c).cut held = ⟨(held.drop c.headLen).take (c.headN2H held - c.headLen) ::
      ((framer c).cut (held.drop (c.headN2H held))).messages,
      ((framer c).cut (held.drop (c.headN2H held))).rest,
      ((framer c).cut (held.drop (c.headN2H held))).stop⟩)
    (hp : ParseSpec raw (before.length + c.headN2H held) (held.drop (c.headN2H held)) p) :
    ParseSpec raw before.length held
      { p with msgCan := (before.length + c.headLen, c.headN2H held - c.headLen) :: p.msgCan } := by
  have hpos : c.headLen < c.headN2H held := by
    unfold Config.invalid at hi
    omega
  have hread : raw.read (before.length + c.headLen) (c.headN2H held - c.headLen) =
      (held.drop c.headLen).take (c.headN2H held - c.headLen) := by
    rw [h.read (by rw [List.length_append]; omega), List.drop_length_add_append]
  constructor
  · rw [hcut]
    exact hp.unpackOk
  · rw [hcut]
    exact hp.remainLen
  · have hnext := hp.pnext
    rw [List.length_drop] at hnext
    simp only
    omega
  · rw [hcut, List.map_cons, hp.msgs, hread]
  · intro m hlast
    rw [List.getLast?_cons] at hlast
    cases hcan : p.msgCan.getLast? with
    | none =>
      rw [hcan] at hlast
      cases hlast
      have hnext := hp.noMsg (List.getLast?_eq_none_iff.mp hcan)
      simp only [hnext, Option.getD_none]
      omega
    | some m' =>
      rw [hcan] at hlast
      cases hlast
      exact hp.last _ hcan
  · intro hnil
    cases hnil
  · rw [hcut]
    exact hp.curMsgLen

/-- A loop that stops at the front. -/
theorem ParseSpec.nil {ok : Bool} {cur : Option Nat} {stop : Option Unit} (start : Nat)
    (hcut : (framer c).cut held = ⟨[], held, stop⟩) (hok : ok = stop.isNone)
    (hcur : cur = none ∨ (¬ held.length < c.headLen ∧ cur = some (c.headN2H held))) :
    ParseSpec raw start held ⟨ok, start, cur, held.length, []⟩ := by
  constructor
  · rw [hcut]
    exact hok
  · rw [hcut]
  · rfl
  · rw [hcut, List.map_nil]
  · intro m hm
    cases hm
  · exact fun _ => rfl
  · rw [hcut]
    exact hcur

theorem parseLoop_spec (h : raw.Holds (before ++ held)) :
    ParseSpec raw before.length held (parseLoop raw before.length none held.length) := by
  induction hk : held.length using Nat.strongRecOn generalizing held before with
  | ind k ih =>
    subst hk
    obtain ⟨hshort, hs⟩ | ⟨hlen, hi, hs⟩ | ⟨hlen, hi, hle, hs⟩ | ⟨hlen, hi, hle, hs⟩ :=
      next_cases c held
    · rw [parseLoop_short _ hshort]
      exact ParseSpec.nil _ (Framer.cut_more hs) rfl (.inl rfl)
    · rw [parseLoop_head h hlen, parseLoop_invalid _ _ hi]
      exact ParseSpec.nil _ (Framer.cut_stop hs) rfl (.inr ⟨hlen, rfl⟩)
    · rw [parseLoop_head h hlen, parseLoop_whole _ hi hle]
      have hsplit : raw.Holds
          ((before ++ held.take (c.headN2H held)) ++ held.drop (c.headN2H held)) := by
        rwa [List.append_assoc, List.take_append_drop]
      have hstart : (before ++ held.take (c.headN2H held)).length =
          before.length + c.headN2H held := by
        rw [List.length_append, List.length_take, Nat.min_eq_left hle]
      have hrest := ih _ (Framer.length_drop_lt (framer c) hs) hsplit rfl
      rw [hstart, List.length_drop] at hrest
      exact ParseSpec.cons h hi hle (Framer.cut_message hs) hrest
    · rw [parseLoop_head h hlen, parseLoop_part _ hi hle]
      exact ParseSpec.nil _ (Framer.cut_more hs) rfl (.inr ⟨hlen, rfl⟩)

theorem ParseSpec.split {p : Parsed} (hp : ParseSpec raw 0 held p) :
    ∃ before, before.length = p.pnext ∧ before ++ ((framer c).cut held).rest = held := by
  obtain ⟨before, hbefore⟩ := Framer.rest_suffix (f := framer c) held
  refine ⟨before, ?_, hbefore⟩
  have hlen := congrArg List.length hbefore
  have hnext := hp.pnext
  rw [List.length_append] at hlen
  rw [hp.remainLen] at hnext
  omega

end

section
variable {u : Unpacker c} {n : Nat} {held : List UInt8}

/-- The members agree with the bytes `held` of a message that is not complete. -/
def Knows (u : Unpacker c) (held : List UInt8) : Prop :=
  u.curMsgLen = none ∨ (¬ held.length < c.headLen ∧ ¬ c.invalid (c.headN2H held) ∧
    u.curMsgLen = some (c.headN2H held))

/-- The completion condition has seen the head. -/
def Ready (u : Unpacker c) (held : List UInt8) : Prop :=
  ¬ held.length < c.headLen ∧ u.curMsgLen = some (c.headN2H held)

theorem parsePositions_spec (hholds : u.rawBuff.Holds held)
    (hlen : u.remainLen + n = held.length) (hready : Ready u held) :
    ∃ p, u.parsePositions n = .ok (if p.pnext = 0 then { p with unpackOk := false } else p) ∧
      ParseSpec u.rawBuff 0 held p := by
  have hsize := hholds.length_le
  have hhead := parseLoop_head (show u.rawBuff.Holds ([] ++ held) from hholds) hready.1
  have hspec := parseLoop_spec (show u.rawBuff.Holds ([] ++ held) from hholds)
  rw [List.length_nil] at hhead hspec
  refine ⟨_, ?_, hspec⟩
  simp only [parsePositions, hlen, check_of hsize, bind, Except.bind, hready.2, ← hhead]
  rfl

theorem parseMsg_ok (hholds : u.rawBuff.Holds held) (hlen : u.remainLen + n = held.length)
    (hready : Ready u held) (hnext : next c held ≠ .more)
    (hstop : ((framer c).cut held).stop = none) :
    ∃ u', u.parseMsg n = .ok (true, ((framer c).cut held).messages, u') ∧
      u'.rawBuff.Holds ((framer c).cut held).rest ∧
      u'.remainLen = ((framer c).cut held).rest.length ∧ Knows u' ((framer c).cut held).rest := by
  obtain ⟨p, hpos, hp⟩ := parsePositions_spec hholds hlen hready
  obtain ⟨before, hbefore, hsplit⟩ := hp.split
  have hshorter : ((framer c).cut held).rest.length < held.length := by
    cases hs : next c held with
    | more => exact absurd hs hnext
    | stop e =>
      rw [Framer.cut_stop hs] at hstop
      cases hstop
    | message m k => exact Framer.length_rest_lt (f := framer c) hs
  have hmoved : p.pnext ≠ 0 := by
    have hsum := hp.pnext
    rw [hp.remainLen] at hsum
    omega
  have hok : p.unpackOk = true := by
    rw [hp.unpackOk, hstop]
    rfl
  have hknows : ∀ (raw : Buffer UInt8 c.msgBufferSize) k,
      Knows ⟨raw, p.curMsgLen, k⟩ ((framer c).cut held).rest := by
    intro raw k
    obtain hcur | ⟨hhead, hcur⟩ := hp.curMsgLen
    · exact .inl hcur
    · refine .inr ⟨hhead, fun hi => ?_, hcur⟩
      cases (next_invalid hhead hi).symm.trans (Framer.next_rest_of_none hstop)
  rw [if_neg hmoved] at hpos
  by_cases hrest : p.remainLen > 0
  · cases hlast : p.msgCan.getLast? with
    | none => exact absurd (hp.noMsg (List.getLast?_eq_none_iff.mp hlast)) hmoved
    | some m =>
      obtain ⟨raw, hcopy, hraw⟩ := memcpyFront_holds (hsplit ▸ hholds)
      rw [hbefore, ← hp.last m hlast, ← hp.remainLen] at hcopy
      refine ⟨⟨raw, p.curMsgLen, p.remainLen⟩, ?_, hraw, hp.remainLen, hknows _ _⟩
      simp only [parseMsg, hpos, bind, Except.bind, hok, hrest, and_self, if_true, hlast, hcopy,
        hp.msgs]
      rfl
  · have hnil : ((framer c).cut held).rest = [] := by
      rw [← List.length_eq_zero_iff, ← hp.remainLen]
      omega
    refine ⟨⟨u.rawBuff, p.curMsgLen, p.remainLen⟩, ?_, ?_, hp.remainLen, hknows _ _⟩
    · simp only [parseMsg, hpos, bind, Except.bind, hok, hrest, and_false, if_false, hp.msgs]
      rfl
    · rw [hnil]
      exact u.rawBuff.holds_nil

theorem parseMsg_fails (hholds : u.rawBuff.Holds held) (hlen : u.remainLen + n = held.length)
    (hready : Ready u held) {e : Unit} (hstop : ((framer c).cut held).stop = some e) :
    ∃ u', u.parseMsg n = .ok (false, ((framer c).cut held).messages, u') ∧
      u'.remainLen = ((framer c).cut held).rest.length := by
  obtain ⟨p, hpos, hp⟩ := parsePositions_spec hholds hlen hready
  have hok : p.unpackOk = false := by
    rw [hp.unpackOk, hstop]
    rfl
  have hpos' : u.parsePositions n = .ok p := by
    rw [hpos]
    split
    · rw [← hok]
    · rfl
  refine ⟨⟨u.rawBuff, p.curMsgLen, p.remainLen⟩, ?_, hp.remainLen⟩
  simp only [parseMsg, hpos', bind, Except.bind, hok, Bool.false_eq_true, false_and, if_false,
    hp.msgs]
  rfl

theorem Knows.append (data : List UInt8) (h : Knows u held) : Knows u (held ++ data) := by
  obtain h | ⟨hlen, hi, h⟩ := h
  · exact .inl h
  · rw [Knows, headN2H_append data hlen]
    refine .inr ⟨?_, hi, h⟩
    rw [List.length_append]
    omega

/-- Whether there is something to parse, once the head is known. -/
theorem next_ne_more {s : List UInt8} (h : ¬ s.length < c.headLen) :
    next c s ≠ .more ↔ c.invalid (c.headN2H s) ∨ c.headN2H s ≤ s.length := by
  by_cases hi : c.invalid (c.headN2H s)
  · simp [next_invalid h hi, hi]
  · by_cases hle : c.headN2H s ≤ s.length
    · simp [next_whole h hi hle, hle]
    · simp [next_part h hi hle, hi, hle]

/-- The answer of the completion condition, and the head if it is there. -/
theorem completionCondition_eq (hholds : u.rawBuff.Holds held)
    (hlen : u.remainLen + n = held.length) (hknows : Knows u held) :
    ∃ u', u.completionCondition n =
        .ok (if next c held = .more then defaultMaxTransferSize else 0, u') ∧
      u'.rawBuff = u.rawBuff ∧ u'.remainLen = u.remainLen ∧
      (next c held = .more → Knows u' held) ∧ (next c held ≠ .more → Ready u' held) := by
  have hsize := hholds.length_le
  obtain hcur | ⟨hhead, hi, hcur⟩ := hknows
  · by_cases hshort : held.length < c.headLen
    · refine ⟨u, ?_, rfl, rfl, fun _ => .inl hcur, fun h => absurd (next_short hshort) h⟩
      simp only [completionCondition, hlen, check_of hsize, bind, Except.bind, hcur, ge_iff_le,
        if_neg (Nat.not_le.mpr hshort), if_pos (next_short hshort)]
      rfl
    · have hread : BigEndian.decode (u.rawBuff.read 0 c.headLen) = c.headN2H held := by
        rw [hholds.read (by omega)]
        rfl
      refine ⟨{ u with curMsgLen := some (c.headN2H held) }, ?_, rfl, rfl,
        fun hmore => .inr ⟨hshort, fun hi => ?_, rfl⟩, fun _ => ⟨hshort, rfl⟩⟩
      · have hmore := next_ne_more hshort
        simp only [completionCondition, hlen, check_of hsize, bind, Except.bind, hcur, ge_iff_le,
          if_pos (Nat.not_lt.mp hshort), hread]
        by_cases hi : c.invalid (c.headN2H held)
        · rw [if_pos hi, if_neg (hmore.mpr (.inl hi))]
          rfl
        · rw [if_neg hi]
          by_cases hle : c.headN2H held ≤ held.length
          · rw [if_pos hle, if_neg (hmore.mpr (.inr hle))]
            rfl
          · rw [if_neg hle, if_pos (next_part hshort hi hle)]
            rfl
      · cases (next_invalid hshort hi).symm.trans hmore
  · refine ⟨u, ?_, rfl, rfl, fun _ => .inr ⟨hhead, hi, hcur⟩, fun _ => ⟨hhead, hcur⟩⟩
    simp only [completionCondition, hlen, check_of hsize, bind, Except.bind, hcur, ge_iff_le]
    by_cases hle : c.headN2H held ≤ held.length
    · rw [if_pos hle, if_neg ((next_ne_more hhead).mpr (.inr hle))]
      rfl
    · rw [if_neg hle, if_pos (next_part hhead hi hle)]
      rfl

theorem completionCondition_ok (h : u.remainLen + n ≤ c.msgBufferSize) :
    ∃ r, u.completionCondition n = .ok r := by
  simp only [completionCondition, check_of h, bind, Except.bind]
  split
  · split
    · split
      · exact ⟨_, rfl⟩
      · exact ⟨_, rfl⟩
    · exact ⟨_, rfl⟩
  · exact ⟨_, rfl⟩

end

theorem not_more_of_full {held : List UInt8} (h : held.length = c.msgBufferSize) :
    next c held ≠ .more := by
  have hlt := c.headLen_lt
  have hhead : ¬ held.length < c.headLen := by omega
  rw [next_ne_more hhead]
  unfold Config.invalid
  omega

def buffered (c : Config) :
    Buffered (interface c) (framer c) c.msgBufferSize (fun _ => False) where
  size_pos := Nat.lt_of_le_of_lt (Nat.zero_le _) c.headLen_lt
  rawBuff := rawBuff
  remainLen := remainLen
  knows := Knows
  ready := Ready
  more := next_short c.headLen_pos
  not_more := not_more_of_full
  knows_append := fun data _ h => h.append data
  prepareNextRecv := by
    intro u h
    simp only [interface, prepareNextRecv, check_of h, bind, Except.bind]
    rfl
  prepareNextRecv_full := by
    intro u h
    simp only [interface, prepareNextRecv, check_of_not (Nat.not_lt.mpr (Nat.le_of_eq h.symm)),
      bind, Except.bind]
  fill := by
    intro u i data raw h
    refine ⟨{ u with rawBuff := raw }, ?_, rfl, rfl, fun _ h => h⟩
    simp only [interface, fill, h, bind, Except.bind]
    rfl
  completes := completionCondition_ok
  completion_more := by
    intro u n held hholds hlen hknows hmore
    obtain ⟨u', hc, hraw, hrem, hk, _⟩ := completionCondition_eq hholds hlen hknows
    rw [if_pos (show next c held = .more from hmore)] at hc
    exact ⟨u', hc, hraw, hrem, hk hmore⟩
  completion_ready := by
    intro u n held hholds hlen hknows hmore
    obtain ⟨u', hc, hraw, hrem, _, hr⟩ := completionCondition_eq hholds hlen hknows
    rw [if_neg (show next c held ≠ .more from hmore)] at hc
    exact ⟨u', hc, hraw, hrem, hr hmore⟩
  parse := parseMsg_ok
  parse_fails := fun hholds hlen hready _ hstop _ => parseMsg_fails hholds hlen hready hstop
  parse_aborts := fun _ _ _ _ _ h => h.elim

end Unpacker

end AsioTcp.Wrapper
