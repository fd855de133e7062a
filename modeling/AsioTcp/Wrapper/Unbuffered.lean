import AsioTcp.Wrapper.Unpacker

/-!
# `unbuffered_unpacker`

It reads the head and the body of a message one after the other, the body into
memory of its own size. On streams of well-formed messages it does what
`unpacker` does (`implements`, with the same framer); a head that is no length
ends in an assertion.
-/

namespace AsioTcp.Wrapper

open StreamFramer

/-- `inflexible_buffer` -/
structure InflexibleBuffer where
  len : Nat
  buff : Buffer UInt8 len
  deriving DecidableEq, Repr

namespace InflexibleBuffer

def detached : InflexibleBuffer := ⟨0, ⟨[], rfl⟩⟩

def empty (b : InflexibleBuffer) : Bool := b.len == 0

/-- `attach(new char[len], len)` -/
def attach (len : Nat) : InflexibleBuffer := ⟨len, .filled 0⟩

end InflexibleBuffer

inductive Step
  /-- -1 -/
  | errorFormat
  /-- 0 -/
  | wantHead
  /-- 1 -/
  | wantBody
  deriving DecidableEq, Repr

structure UnbufferedUnpacker (c : Config) where
  head : Buffer UInt8 c.headLen
  rawBuff : InflexibleBuffer
  step : Step
  deriving DecidableEq, Repr

/-- `a - b` in `size_t` -/
def sizeSub (a b : Nat) : Nat := (a + 2 ^ 64 - b) % 2 ^ 64

namespace UnbufferedUnpacker

variable {c : Config}

def parseMsg (u : UnbufferedUnpacker c) (bytesTransferred : Nat) :
    Except Fault (Bool × List (List UInt8) × UnbufferedUnpacker c) :=
  match u.step with
  | .wantHead => do
    check (u.rawBuff.empty = false)
    return (true, [], { u with step := .wantBody })
  | .wantBody => do
    check (u.rawBuff.empty = false)
    if bytesTransferred ≠ u.rawBuff.len then return (false, [], u)
    else return (true, [u.rawBuff.buff.items],
      { u with rawBuff := .detached, step := .wantHead })
  | .errorFormat => return (false, [], u)

def completionCondition (u : UnbufferedUnpacker c) (bytesTransferred : Nat) :
    Except Fault (Nat × UnbufferedUnpacker c) :=
  match u.step with
  | .wantHead => do
    check (u.rawBuff.empty = true)
    if bytesTransferred < c.headLen then return (defaultMaxTransferSize, u)
    else
      check (c.headLen = bytesTransferred)
      let curMsgLen := sizeSub (BigEndian.decode (u.head.read 0 c.headLen)) c.headLen
      if curMsgLen > c.msgBufferSize - c.headLen then return (0, { u with step := .errorFormat })
      else return (0, { u with rawBuff := .attach curMsgLen })
  | .wantBody => do
    check (u.rawBuff.empty = false)
    return (defaultMaxTransferSize, u)
  | .errorFormat => do
    check False
    return (0, u)

def prepareNextRecv (u : UnbufferedUnpacker c) : Except Fault Nat :=
  return if u.rawBuff.empty then c.headLen else u.rawBuff.len

def fill (u : UnbufferedUnpacker c) (i : Nat) (data : List UInt8) :
    Except Fault (UnbufferedUnpacker c) :=
  if u.rawBuff.empty then do
    let head ← writeAt u.head i data
    return { u with head := head }
  else do
    let buff ← writeAt u.rawBuff.buff i data
    return { u with rawBuff := ⟨u.rawBuff.len, buff⟩ }

def resetState (head : Buffer UInt8 c.headLen) : UnbufferedUnpacker c :=
  ⟨head, .detached, .wantHead⟩

def interface (c : Config) : IUnpacker (UnbufferedUnpacker c) (List UInt8) where
  parseMsg := parseMsg
  completionCondition := completionCondition
  prepareNextRecv := prepareNextRecv
  fill := fill

/-! ## It cuts the stream as `unpacker` does -/

/-- A read that waits for the rest of a head, or of a body. -/
inductive Rep : Reading (UnbufferedUnpacker c) → List UInt8 → Prop
  | head {u : UnbufferedUnpacker c} {held : List UInt8} :
      u.step = .wantHead → u.rawBuff = .detached → u.head.Holds held →
      held.length < c.headLen →
      Rep ⟨u, c.headLen, held.length, defaultMaxTransferSize⟩ held
  | body {u : UnbufferedUnpacker c} {held before : List UInt8} :
      u.step = .wantBody → before.length = c.headLen →
      ¬ c.invalid (c.headN2H before) → u.rawBuff.len = c.headN2H before - c.headLen →
      u.rawBuff.buff.Holds held → held.length < u.rawBuff.len →
      Rep ⟨u, u.rawBuff.len, held.length, defaultMaxTransferSize⟩ (before ++ held)

def outcome (_ : Unit) (ms : List (List UInt8)) (_ : List UInt8) :
    List (List UInt8) × Phase (UnbufferedUnpacker c) := (ms, .fault .assertion)

/-- The length of the body, or more than there may be. -/
theorem sizeSub_headLen {n : Nat} (hn : n < 2 ^ 63) :
    sizeSub n c.headLen > c.msgBufferSize - c.headLen ↔ n > c.msgBufferSize ∨ n < c.headLen := by
  have hle := c.headLen_le
  have hlt := c.headLen_lt
  have hsize := c.msgBufferSize_lt
  unfold sizeSub
  by_cases h : n < c.headLen
  · rw [Nat.mod_eq_of_lt (by omega)]
    omega
  · rw [show n + 2 ^ 64 - c.headLen = n - c.headLen + 2 ^ 64 by omega, Nat.add_mod_right,
      Nat.mod_eq_of_lt (by omega)]
    omega

theorem headN2H_lt (c : Config) (bytes : List UInt8) : c.headN2H bytes < 2 ^ 63 := by
  have hlt := BigEndian.decode_lt (bytes.take c.headLen)
  have hle : (bytes.take c.headLen).length ≤ 4 :=
    Nat.le_trans (List.length_take_le _ _) c.headLen_le
  have hpow := Nat.pow_le_pow_right (show 256 > 0 by decide) hle
  unfold Config.headN2H
  omega

section
variable {u : UnbufferedUnpacker c} {held data : List UInt8}

theorem fill_head (hraw : u.rawBuff = .detached) (hholds : u.head.Holds held)
    (hfit : held.length + data.length ≤ c.headLen) :
    ∃ head, fill u held.length data = .ok { u with head := head } ∧
      head.Holds (held ++ data) := by
  obtain ⟨head, hw, hhead⟩ := writeAt_holds hholds hfit
  refine ⟨head, ?_, hhead⟩
  simp only [fill, hraw, InflexibleBuffer.empty, InflexibleBuffer.detached, beq_self_eq_true,
    if_true, hw, bind, Except.bind]
  rfl

theorem empty_of_lt (h : held.length < u.rawBuff.len) : u.rawBuff.empty = false := by
  have hne : u.rawBuff.len ≠ 0 := by omega
  simpa [InflexibleBuffer.empty] using hne

theorem fill_body (hlt : held.length < u.rawBuff.len) (hholds : u.rawBuff.buff.Holds held)
    (hfit : held.length + data.length ≤ u.rawBuff.len) :
    ∃ buff, fill u held.length data = .ok { u with rawBuff := ⟨u.rawBuff.len, buff⟩ } ∧
      buff.Holds (held ++ data) := by
  obtain ⟨buff, hw, hbuff⟩ := writeAt_holds hholds hfit
  refine ⟨buff, ?_, hbuff⟩
  simp only [fill, empty_of_lt hlt, Bool.false_eq_true, if_false, hw, bind, Except.bind]
  rfl

/-- The head is there: what the completion condition makes of it. -/
theorem completionCondition_head (hstep : u.step = .wantHead) (hraw : u.rawBuff = .detached)
    (hholds : u.head.Holds held) (hlen : held.length = c.headLen) :
    u.completionCondition held.length =
      if c.headN2H held > c.msgBufferSize ∨ c.headN2H held < c.headLen then
        .ok (0, { u with step := .errorFormat })
      else .ok (0, { u with rawBuff := .attach (c.headN2H held - c.headLen) }) := by
  have hread : BigEndian.decode (u.head.read 0 c.headLen) = c.headN2H held := by
    rw [hholds.read (by omega), List.drop_zero]
    rfl
  have hempty : u.rawBuff.empty = true := by
    rw [hraw]
    rfl
  have hsub := sizeSub_headLen (c := c) (headN2H_lt c held)
  simp only [completionCondition, hstep, check_of hempty, bind, Except.bind, hlen,
    Nat.lt_irrefl, if_false, check_of, hread]
  by_cases hbad : c.headN2H held > c.msgBufferSize ∨ c.headN2H held < c.headLen
  · rw [if_pos (hsub.mpr hbad), if_pos hbad]
    rfl
  · have hlt := headN2H_lt c held
    rw [if_neg (mt hsub.mp hbad), if_neg hbad]
    unfold sizeSub
    rw [show c.headN2H held + 2 ^ 64 - c.headLen = c.headN2H held - c.headLen + 2 ^ 64 by omega,
      Nat.add_mod_right, Nat.mod_eq_of_lt (by omega)]
    rfl

theorem completionCondition_body (hstep : u.step = .wantBody) (n : Nat)
    (hempty : u.rawBuff.empty = false) :
    u.completionCondition n = .ok (defaultMaxTransferSize, u) := by
  simp only [completionCondition, hstep, check_of hempty, bind, Except.bind]
  rfl

theorem empty_attach {n : Nat} (h : 0 < n) : (InflexibleBuffer.attach n).empty = false := by
  have hne : n ≠ 0 := by omega
  simpa [InflexibleBuffer.empty, InflexibleBuffer.attach] using hne

/-- The handler after a head. -/
theorem recvHandler_head (hstep : u.step = .wantHead) (n : Nat) {len : Nat} (hpos : 0 < len)
    (hraw : u.rawBuff = .attach len) :
    (interface c).recvHandler u n = ([], .reading
      ⟨{ u with step := .wantBody }, len, 0, defaultMaxTransferSize⟩) := by
  have hempty : u.rawBuff.empty = false := by
    rw [hraw]
    exact empty_attach hpos
  have hparse : u.parseMsg n = .ok (true, [], { u with step := .wantBody }) := by
    simp only [parseMsg, hstep, check_of hempty, bind, Except.bind]
    rfl
  have hsize : prepareNextRecv { u with step := .wantBody } = .ok len := by
    simp only [prepareNextRecv, hempty, Bool.false_eq_true, if_false]
    rw [hraw]
    rfl
  have hcond : completionCondition { u with step := .wantBody } 0 =
      .ok (defaultMaxTransferSize, { u with step := .wantBody }) :=
    completionCondition_body rfl 0 hempty
  exact IUnpacker.recvHandler_ok hparse
    (IUnpacker.doRecvMsg_reading hsize hpos hcond (by decide))

/-- The handler after a head that is no length. -/
theorem recvHandler_bad (hstep : u.step = .errorFormat) (n : Nat)
    (hraw : u.rawBuff = .detached) :
    (interface c).recvHandler u n = ([], .fault .assertion) := by
  have hparse : u.parseMsg n = .ok (false, [], u) := by
    simp only [parseMsg, hstep]
    rfl
  have hsize : u.prepareNextRecv = .ok c.headLen := by
    rw [prepareNextRecv, hraw]
    rfl
  have hcond : u.completionCondition 0 = .error .assertion := by
    simp only [completionCondition, hstep]
    rfl
  exact IUnpacker.recvHandler_next_fault hparse
    (IUnpacker.doRecvMsg_fault hsize c.headLen_pos hcond)

/-- The handler after a head that leaves no body. -/
theorem recvHandler_noBody (hstep : u.step = .wantHead) (n : Nat)
    (hempty : u.rawBuff.empty = true) :
    (interface c).recvHandler u n = ([], .fault .assertion) := by
  refine IUnpacker.recvHandler_parse_fault ?_
  have hnot : ¬ u.rawBuff.empty = false := by
    rw [hempty]
    simp
  simp only [interface, parseMsg, hstep, check_of_not hnot, bind, Except.bind]

theorem doRecvMsg_head (hstep : u.step = .wantHead) (hraw : u.rawBuff = .detached) :
    (interface c).doRecvMsg u = .ok (.reading ⟨u, c.headLen, 0, defaultMaxTransferSize⟩) := by
  have hsize : u.prepareNextRecv = .ok c.headLen := by
    rw [prepareNextRecv, hraw]
    rfl
  have hempty : u.rawBuff.empty = true := by
    rw [hraw]
    rfl
  refine IUnpacker.doRecvMsg_reading hsize c.headLen_pos ?_ (by decide)
  simp only [interface, completionCondition, hstep, check_of hempty, bind, Except.bind,
    if_pos c.headLen_pos]
  rfl

/-- The handler after a body. -/
theorem recvHandler_body (hstep : u.step = .wantBody) (hempty : u.rawBuff.empty = false) :
    (interface c).recvHandler u u.rawBuff.len = ([u.rawBuff.buff.items],
      .reading ⟨{ u with rawBuff := .detached, step := .wantHead }, c.headLen, 0,
        defaultMaxTransferSize⟩) := by
  refine IUnpacker.recvHandler_ok ?_ (doRecvMsg_head rfl rfl)
  simp only [interface, parseMsg, hstep, check_of hempty, bind, Except.bind, ne_eq,
    not_true_eq_false, if_false]
  rfl

/-- A piece of a head, or the rest of it. -/
theorem receive_head (hstep : u.step = .wantHead) (hraw : u.rawBuff = .detached)
    (hholds : u.head.Holds held) (hfit : held.length + data.length ≤ c.headLen) :
    ∃ head : Buffer UInt8 c.headLen, head.Holds (held ++ data) ∧
      (interface c).receive ⟨u, c.headLen, held.length, defaultMaxTransferSize⟩ data =
        if (held ++ data).length < c.headLen then
          ([], .reading ⟨{ u with head := head }, c.headLen, (held ++ data).length,
            defaultMaxTransferSize⟩)
        else if c.invalid (c.headN2H (held ++ data)) then ([], .fault .assertion)
        else ([], .reading ⟨⟨head, .attach (c.headN2H (held ++ data) - c.headLen), .wantBody⟩,
          c.headN2H (held ++ data) - c.headLen, 0, defaultMaxTransferSize⟩) := by
  obtain ⟨head, hf, hhead⟩ := fill_head hraw hholds hfit
  refine ⟨head, hhead, ?_⟩
  have hsum : held.length + data.length = (held ++ data).length := List.length_append.symm
  have hempty : u.rawBuff.empty = true := by
    rw [hraw]
    rfl
  by_cases hlt : (held ++ data).length < c.headLen
  · have hcond : completionCondition { u with head := head } (held.length + data.length) =
        .ok (defaultMaxTransferSize, { u with head := head }) := by
      simp only [completionCondition, hstep, check_of hempty, bind, Except.bind, hsum,
        if_pos hlt]
      rfl
    rw [if_pos hlt, ← hsum]
    exact IUnpacker.receive_waits hf hcond (by decide) (by simp only; omega)
  · have hlen : (held ++ data).length = c.headLen := by omega
    have hcond := completionCondition_head (u := { u with head := head }) hstep hraw hhead hlen
    rw [← hsum] at hcond
    have hinv := c.invalid_iff (c.headN2H (held ++ data))
    rw [if_neg hlt]
    by_cases hbad : c.headN2H (held ++ data) > c.msgBufferSize ∨
        c.headN2H (held ++ data) < c.headLen
    · rw [if_pos hbad] at hcond
      rw [if_pos (hinv.mpr (by omega))]
      exact (IUnpacker.receive_handles hf hcond (.inl rfl)).trans
        (recvHandler_bad (u := ⟨head, u.rawBuff, .errorFormat⟩) rfl _ hraw)
    · rw [if_neg hbad] at hcond
      by_cases hzero : c.headN2H (held ++ data) = c.headLen
      · rw [hzero, Nat.sub_self] at hcond
        rw [if_pos (hinv.mpr (by omega))]
        exact (IUnpacker.receive_handles hf hcond (.inl rfl)).trans
          (recvHandler_noBody (u := ⟨head, .attach 0, u.step⟩) hstep _ rfl)
      · have hpos : 0 < c.headN2H (held ++ data) - c.headLen := by omega
        rw [if_neg (mt hinv.mp (by omega))]
        exact (IUnpacker.receive_handles hf hcond (.inl rfl)).trans
          (recvHandler_head (u := ⟨head, .attach _, u.step⟩) hstep _ hpos rfl)

/-- A piece of a body, or the rest of it. -/
theorem receive_body (hstep : u.step = .wantBody) (hholds : u.rawBuff.buff.Holds held)
    (hlt : held.length < u.rawBuff.len) (hfit : held.length + data.length ≤ u.rawBuff.len) :
    ∃ buff : Buffer UInt8 u.rawBuff.len, buff.Holds (held ++ data) ∧
      (interface c).receive ⟨u, u.rawBuff.len, held.length, defaultMaxTransferSize⟩ data =
        if (held ++ data).length < u.rawBuff.len then
          ([], .reading ⟨{ u with rawBuff := ⟨u.rawBuff.len, buff⟩ }, u.rawBuff.len,
            (held ++ data).length, defaultMaxTransferSize⟩)
        else ([held ++ data], .reading ⟨⟨u.head, .detached, .wantHead⟩, c.headLen, 0,
          defaultMaxTransferSize⟩) := by
  obtain ⟨buff, hf, hbuff⟩ := fill_body hlt hholds hfit
  refine ⟨buff, hbuff, ?_⟩
  have hsum : held.length + data.length = (held ++ data).length := List.length_append.symm
  have hempty : InflexibleBuffer.empty ⟨u.rawBuff.len, buff⟩ = false := empty_of_lt hlt
  have hcond : completionCondition { u with rawBuff := ⟨u.rawBuff.len, buff⟩ }
      (held.length + data.length) =
        .ok (defaultMaxTransferSize, { u with rawBuff := ⟨u.rawBuff.len, buff⟩ }) :=
    completionCondition_body (u := ⟨u.head, ⟨u.rawBuff.len, buff⟩, u.step⟩) hstep _ hempty
  by_cases hpart : (held ++ data).length < u.rawBuff.len
  · rw [if_pos hpart, ← hsum]
    exact IUnpacker.receive_waits hf hcond (by decide) (by simp only; omega)
  · have hlen : held.length + data.length = u.rawBuff.len := by omega
    have hitems : buff.items = held ++ data := by
      obtain ⟨after, hafter⟩ := hbuff
      have hall := congrArg List.length hafter
      rw [List.length_append, buff.length_items] at hall
      rw [← hafter, List.length_eq_zero_iff.mp (show after.length = 0 by omega),
        List.append_nil]
    rw [if_neg hpart]
    refine (IUnpacker.receive_handles hf hcond (.inr hlen)).trans ?_
    have hbody := recvHandler_body (u := { u with rawBuff := ⟨u.rawBuff.len, buff⟩ }) hstep hempty
    simp only at hbody
    rw [hlen, hbody, hitems]

end

section
variable {u : UnbufferedUnpacker c} {before held : List UInt8}

theorem headN2H_before (hb : before.length = c.headLen) (t : List UInt8) :
    c.headN2H (before ++ t) = c.headN2H before :=
  Unpacker.headN2H_append t (by omega)

/-- A head and part of its body. -/
theorem next_part_body (hb : before.length = c.headLen) (hi : ¬ c.invalid (c.headN2H before))
    (hlt : held.length < c.headN2H before - c.headLen) :
    Unpacker.next c (before ++ held) = .more := by
  refine Unpacker.next_part ?_ ?_ ?_
  · rw [List.length_append]
    omega
  · rwa [headN2H_before hb]
  · rw [headN2H_before hb, List.length_append]
    omega

/-- A head and all of its body. -/
theorem cut_whole_body (hb : before.length = c.headLen) (hi : ¬ c.invalid (c.headN2H before))
    (hlen : held.length = c.headN2H before - c.headLen) :
    (Unpacker.framer c).cut (before ++ held) = ⟨[held], [], none⟩ := by
  have hn : c.headN2H before = (before ++ held).length := by
    have hinv := mt (c.invalid_iff _).mpr hi
    rw [List.length_append]
    omega
  have hnext : Unpacker.next c (before ++ held) = .message held (before ++ held).length := by
    have hhead : ¬ (before ++ held).length < c.headLen := by
      rw [List.length_append]
      omega
    rw [Unpacker.next_whole hhead (by rwa [headN2H_before hb])
      (by rw [headN2H_before hb]; exact Nat.le_of_eq hn), headN2H_before hb, ← hb,
      List.drop_left, hb, ← hlen, List.take_length, hn]
  have hnil : (Unpacker.framer c).cut [] = ⟨[], [], none⟩ :=
    Framer.cut_more (Unpacker.next_short c.headLen_pos)
  rw [Framer.cut_message (f := Unpacker.framer c) hnext, List.drop_length, hnil]

theorem rep_start (hstep : u.step = .wantHead) (hraw : u.rawBuff = .detached) :
    Rep ⟨u, c.headLen, 0, defaultMaxTransferSize⟩ [] :=
  Rep.head hstep hraw u.head.holds_nil c.headLen_pos

/-- What the reader does when all there is of the stream becomes `s`. -/
def Follows (r : Reading (UnbufferedUnpacker c)) (data s : List UInt8) : Prop :=
  match ((Unpacker.framer c).cut s).stop with
  | none => ∃ r', (interface c).receive r data =
      (((Unpacker.framer c).cut s).messages, .reading r') ∧ Rep r' ((Unpacker.framer c).cut s).rest
  | some _ => (interface c).receive r data =
      (((Unpacker.framer c).cut s).messages, .fault .assertion)

theorem follows_head {data : List UInt8} (hstep : u.step = .wantHead)
    (hraw : u.rawBuff = .detached) (hholds : u.head.Holds held)
    (hfit : held.length + data.length ≤ c.headLen) :
    Follows ⟨u, c.headLen, held.length, defaultMaxTransferSize⟩ data (held ++ data) := by
  obtain ⟨head, hhead, hrec⟩ := receive_head hstep hraw hholds hfit
  unfold Follows
  rw [hrec]
  by_cases hshort : (held ++ data).length < c.headLen
  · rw [if_pos hshort, Framer.cut_more (f := Unpacker.framer c) (Unpacker.next_short hshort)]
    exact ⟨_, rfl, Rep.head hstep hraw hhead hshort⟩
  · rw [if_neg hshort]
    by_cases hi : c.invalid (c.headN2H (held ++ data))
    · rw [if_pos hi,
        Framer.cut_stop (f := Unpacker.framer c) (Unpacker.next_invalid hshort hi)]
    · have hlen : (held ++ data).length = c.headLen := by
        rw [List.length_append] at hshort ⊢
        omega
      have hpos : ([] : List UInt8).length < c.headN2H (held ++ data) - c.headLen := by
        have hinv := mt (c.invalid_iff _).mpr hi
        rw [List.length_nil]
        omega
      have hnext := next_part_body hlen hi hpos
      have hrep := Rep.body (u := ⟨head, .attach (c.headN2H (held ++ data) - c.headLen),
        .wantBody⟩) rfl hlen hi rfl (Buffer.holds_nil _) hpos
      rw [List.append_nil] at hnext hrep
      rw [if_neg hi, Framer.cut_more (f := Unpacker.framer c) hnext]
      exact ⟨_, rfl, hrep⟩

theorem follows_body {data : List UInt8} (hstep : u.step = .wantBody)
    (hb : before.length = c.headLen) (hi : ¬ c.invalid (c.headN2H before))
    (hlen : u.rawBuff.len = c.headN2H before - c.headLen) (hholds : u.rawBuff.buff.Holds held)
    (hlt : held.length < u.rawBuff.len) (hfit : held.length + data.length ≤ u.rawBuff.len) :
    Follows ⟨u, u.rawBuff.len, held.length, defaultMaxTransferSize⟩ data
      (before ++ (held ++ data)) := by
  obtain ⟨buff, hbuff, hrec⟩ := receive_body hstep hholds hlt hfit
  unfold Follows
  rw [hrec]
  by_cases hpart : (held ++ data).length < u.rawBuff.len
  · have hnext := next_part_body hb hi (hlen ▸ hpart)
    rw [if_pos hpart, Framer.cut_more (f := Unpacker.framer c) hnext]
    exact ⟨_, rfl, Rep.body (u := { u with rawBuff := ⟨u.rawBuff.len, buff⟩ }) hstep hb hi hlen
      hbuff hpart⟩
  · have hall : (held ++ data).length = c.headN2H before - c.headLen := by
      rw [List.length_append] at hpart ⊢
      omega
    rw [if_neg hpart, cut_whole_body hb hi hall]
    exact ⟨_, rfl, rep_start (u := ⟨u.head, .detached, .wantHead⟩) rfl rfl⟩

theorem Rep.follows {r : Reading (UnbufferedUnpacker c)} (hrep : Rep r held) {data : List UInt8}
    (hle : data.length ≤ r.space) : Follows r data (held ++ data) := by
  unfold Reading.space at hle
  cases hrep with
  | head hstep hraw hholds hlt =>
    simp only at hle
    exact follows_head hstep hraw hholds (by omega)
  | body hstep hb hi hlen hholds hlt =>
    simp only at hle
    rw [List.append_assoc]
    exact follows_body hstep hb hi hlen hholds hlt (by omega)

/-- `unbuffered_unpacker` and `unpacker` cut a stream in the same way. -/
theorem implements (head : Buffer UInt8 c.headLen) :
    Implements (interface c) (Unpacker.framer c) Rep outcome (resetState head) where
  start := by
    refine ⟨_, ?_, rep_start (u := resetState head) rfl rfl⟩
    simp only [IUnpacker.start, doRecvMsg_head (u := resetState head) rfl rfl]
  more := Unpacker.next_short c.headLen_pos
  space := by
    intro r held hrep
    have hdef : defaultMaxTransferSize = 65536 := rfl
    unfold Reading.space
    cases hrep with
    | head _ _ _ hlt => simp only; omega
    | body _ _ _ _ _ hlt => simp only; omega
  receive := by
    intro r held data hrep _ _ hle hstop
    have hfollows := hrep.follows hle
    rw [Follows, hstop] at hfollows
    exact hfollows
  receive_stop := by
    intro r held e data hrep _ _ hle hstop
    have hfollows := hrep.follows hle
    rw [Follows, hstop] at hfollows
    exact hfollows
  ended := fun e ms rest r => ⟨by simp [outcome], by simp [outcome]⟩

end

end UnbufferedUnpacker

end AsioTcp.Wrapper
