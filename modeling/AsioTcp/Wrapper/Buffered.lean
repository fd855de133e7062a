import AsioTcp.Lib.Buffer
import AsioTcp.Wrapper.Reader

/-!
# Unpackers with a buffer of `MSG_BUFFER_SIZE`

Three of the unpackers read into `raw_buff` behind the `remain_len` bytes that
they have kept, and move what `parse_msg` leaves to its front. `Buffered` says
what their functions have in common, and `Buffered.implements` that such an
unpacker cuts the stream like its framer.
-/

namespace AsioTcp.Wrapper

open StreamFramer Transition

/-- `memcpy` of `len` bytes at `start` to the front of a buffer. The regions
overlap when `start < len`; the bytes are taken to arrive all the same. -/
def memcpyFront {size : Nat} (raw : Buffer UInt8 size) (start len : Nat) :
    Except Fault (Buffer UInt8 size) :=
  if start + len ≤ size then
    match raw.write 0 (raw.read start len) with
    | some raw => .ok raw
    | none => .error .overrun
  else .error .overrun

/-- The operating system writes into a buffer. -/
def writeAt {size : Nat} (raw : Buffer UInt8 size) (start : Nat) (data : List UInt8) :
    Except Fault (Buffer UInt8 size) :=
  match raw.write start data with
  | some raw => .ok raw
  | none => .error .overrun

theorem writeAt_holds {size : Nat} {raw : Buffer UInt8 size} {held data : List UInt8}
    (h : raw.Holds held) (hfit : held.length + data.length ≤ size) :
    ∃ raw', writeAt raw held.length data = .ok raw' ∧ raw'.Holds (held ++ data) := by
  obtain ⟨raw', hw, hholds⟩ := h.length_write hfit
  refine ⟨raw', ?_, hholds⟩
  simp only [writeAt, hw]

theorem memcpyFront_holds {size : Nat} {raw : Buffer UInt8 size} {before rest : List UInt8}
    (h : raw.Holds (before ++ rest)) :
    ∃ raw', memcpyFront raw before.length rest.length = .ok raw' ∧ raw'.Holds rest := by
  have hle := h.length_le
  rw [List.length_append] at hle
  have hread : raw.read before.length rest.length = rest := by
    rw [h.read (Nat.le_of_eq List.length_append.symm), List.drop_left, List.take_length]
  obtain ⟨raw', hw⟩ := raw.isSome_write (show 0 + rest.length ≤ size by omega)
  refine ⟨raw', ?_, Buffer.holds_write_zero hw⟩
  simp only [memcpyFront, if_pos hle, hread, hw]

/-- `knows s held`: the members agree with the bytes `held` of a message that
is not complete. `ready s held`: they are as the completion condition leaves
them when there is something to parse. `parse_msg` ends the process for the
reasons in `aborts`. -/
structure Buffered {σ μ ε : Type} (U : IUnpacker σ μ) (f : Framer UInt8 μ ε) (size : Nat)
    (aborts : ε → Prop) where
  size_pos : 0 < size
  rawBuff : σ → Buffer UInt8 size
  remainLen : σ → Nat
  knows : σ → List UInt8 → Prop
  ready : σ → List UInt8 → Prop
  more : f.next [] = .more
  not_more : ∀ {held}, held.length = size → f.next held ≠ .more
  knows_append : ∀ {s held} data, f.next held = .more → knows s held → knows s (held ++ data)
  prepareNextRecv : ∀ {s}, remainLen s < size → U.prepareNextRecv s = .ok (size - remainLen s)
  prepareNextRecv_full : ∀ {s}, remainLen s = size → U.prepareNextRecv s = .error .assertion
  fill : ∀ {s i data raw}, writeAt (rawBuff s) (remainLen s + i) data = .ok raw →
    ∃ s', U.fill s i data = .ok s' ∧ rawBuff s' = raw ∧ remainLen s' = remainLen s ∧
      ∀ held, knows s held → knows s' held
  completes : ∀ {s n}, remainLen s + n ≤ size → ∃ r, U.completionCondition s n = .ok r
  completion_more : ∀ {s n held}, (rawBuff s).Holds held → remainLen s + n = held.length →
    knows s held → f.next held = .more →
    ∃ s', U.completionCondition s n = .ok (defaultMaxTransferSize, s') ∧
      rawBuff s' = rawBuff s ∧ remainLen s' = remainLen s ∧ knows s' held
  completion_ready : ∀ {s n held}, (rawBuff s).Holds held → remainLen s + n = held.length →
    knows s held → f.next held ≠ .more →
    ∃ s', U.completionCondition s n = .ok (0, s') ∧
      rawBuff s' = rawBuff s ∧ remainLen s' = remainLen s ∧ ready s' held
  parse : ∀ {s n held}, (rawBuff s).Holds held → remainLen s + n = held.length →
    ready s held → f.next held ≠ .more → (f.cut held).stop = none →
    ∃ s', U.parseMsg s n = .ok (true, (f.cut held).messages, s') ∧
      (rawBuff s').Holds (f.cut held).rest ∧ remainLen s' = (f.cut held).rest.length ∧
      knows s' (f.cut held).rest
  parse_fails : ∀ {s n held e}, (rawBuff s).Holds held → remainLen s + n = held.length →
    ready s held → f.next held ≠ .more → (f.cut held).stop = some e → ¬ aborts e →
    ∃ s', U.parseMsg s n = .ok (false, (f.cut held).messages, s') ∧
      remainLen s' = (f.cut held).rest.length
  parse_aborts : ∀ {s n held e}, (rawBuff s).Holds held → remainLen s + n = held.length →
    ready s held → f.next held ≠ .more → (f.cut held).stop = some e → aborts e →
    U.parseMsg s n = .error .assertion

namespace Buffered

variable {σ μ ε : Type} {U : IUnpacker σ μ} {f : Framer UInt8 μ ε} {size : Nat}
  {aborts : ε → Prop}

/-- A read that waits for the rest of a message. -/
structure Rep (B : Buffered U f size aborts) (r : Reading σ) (held : List UInt8) : Prop where
  holds : (B.rawBuff r.unpacker).Holds held
  length : B.remainLen r.unpacker + r.transferred = held.length
  size : r.size = size - B.remainLen r.unpacker
  maxSize : r.maxSize = defaultMaxTransferSize
  knows : B.knows r.unpacker held
  next : f.next held = .more

/-- How it ends. The next read starts before `on_unpack_error`, and its
`prepare_next_recv` asserts that the buffer is not full. -/
def outcome (size : Nat) (aborts : ε → Prop) [DecidablePred aborts] (e : ε) (ms : List μ)
    (rest : List UInt8) : List μ × Phase σ :=
  if aborts e then ([], .fault .assertion)
  else (ms, if rest.length = size then .fault .assertion else .unpackError)

variable (B : Buffered U f size aborts)

theorem length_lt {s : σ} {held : List UInt8} (hholds : (B.rawBuff s).Holds held)
    (hmore : f.next held = .more) : held.length < size :=
  Nat.lt_of_le_of_ne hholds.length_le fun h => B.not_more h hmore

theorem doRecvMsg_more {s : σ} {held : List UInt8} (hholds : (B.rawBuff s).Holds held)
    (hlen : B.remainLen s = held.length) (hknows : B.knows s held)
    (hmore : f.next held = .more) :
    ∃ r, U.doRecvMsg s = .ok (.reading r) ∧ B.Rep r held := by
  have hlt : B.remainLen s < size := by
    rw [hlen]
    exact B.length_lt hholds hmore
  obtain ⟨s', hc, hraw, hrem, hk⟩ := B.completion_more (n := 0) hholds hlen hknows hmore
  refine ⟨⟨s', size - B.remainLen s, 0, defaultMaxTransferSize⟩, ?_, ?_⟩
  · exact IUnpacker.doRecvMsg_reading (B.prepareNextRecv hlt) (by omega) hc (by decide)
  · exact ⟨hraw ▸ hholds, by rw [hrem]; exact hlen, by rw [hrem], rfl, hk, hmore⟩

theorem doRecvMsg_lt {s : σ} (h : B.remainLen s < size) :
    ∃ phase, U.doRecvMsg s = .ok phase := by
  obtain ⟨r, hc⟩ := B.completes (s := s) (n := 0) (by omega)
  have hpos : size - B.remainLen s > 0 := by omega
  simp only [IUnpacker.doRecvMsg, B.prepareNextRecv h, bind, Except.bind, if_pos hpos, hc]
  exact ⟨_, rfl⟩

theorem doRecvMsg_full {s : σ} (h : B.remainLen s = size) :
    U.doRecvMsg s = .error .assertion := by
  simp only [IUnpacker.doRecvMsg, B.prepareNextRecv_full h, bind, Except.bind]

theorem recvHandler_more {s : σ} {n : Nat} {held : List UInt8}
    (hholds : (B.rawBuff s).Holds held) (hlen : B.remainLen s + n = held.length)
    (hready : B.ready s held) (hnext : f.next held ≠ .more) (hstop : (f.cut held).stop = none) :
    ∃ r, U.recvHandler s n = ((f.cut held).messages, .reading r) ∧ B.Rep r (f.cut held).rest := by
  obtain ⟨s', hp, hholds', hrem, hknows⟩ := B.parse hholds hlen hready hnext hstop
  obtain ⟨r, hd, hrep⟩ :=
    B.doRecvMsg_more hholds' hrem hknows (Framer.next_rest_of_none hstop)
  exact ⟨r, IUnpacker.recvHandler_ok hp hd, hrep⟩

theorem recvHandler_stop [DecidablePred aborts] {s : σ} {n : Nat} {held : List UInt8} {e : ε}
    (hholds : (B.rawBuff s).Holds held) (hlen : B.remainLen s + n = held.length)
    (hready : B.ready s held) (hnext : f.next held ≠ .more)
    (hstop : (f.cut held).stop = some e) :
    U.recvHandler s n = outcome size aborts e (f.cut held).messages (f.cut held).rest := by
  by_cases ha : aborts e
  · rw [outcome, if_pos ha]
    exact IUnpacker.recvHandler_parse_fault (B.parse_aborts hholds hlen hready hnext hstop ha)
  · obtain ⟨s', hp, hrem⟩ := B.parse_fails hholds hlen hready hnext hstop ha
    rw [outcome, if_neg ha]
    by_cases hfull : (f.cut held).rest.length = size
    · rw [if_pos hfull]
      exact IUnpacker.recvHandler_next_fault hp (B.doRecvMsg_full (hrem.trans hfull))
    · have hlt : B.remainLen s' < size := by
        have hle := hholds.length_le
        have hrest := Framer.length_rest_le (f := f) held
        omega
      obtain ⟨phase, hd⟩ := B.doRecvMsg_lt hlt
      rw [if_neg hfull]
      exact IUnpacker.recvHandler_fails hp hd

/-- Up to the completion condition: the bytes that have arrived are behind
those that were held, and it ends the read when there is something to parse. -/
theorem receive_eq {r : Reading σ} {held : List UInt8} (hrep : B.Rep r held) {data : List UInt8}
    (hle : data.length ≤ r.space) :
    (f.next (held ++ data) = .more → ∃ r', U.receive r data = ([], .reading r') ∧
      B.Rep r' (held ++ data)) ∧
    (f.next (held ++ data) ≠ .more → ∃ s, U.receive r data =
        U.recvHandler s (r.transferred + data.length) ∧ (B.rawBuff s).Holds (held ++ data) ∧
      B.remainLen s + (r.transferred + data.length) = (held ++ data).length ∧
      B.ready s (held ++ data)) := by
  obtain ⟨hholds, hlen, hsize, hmax, hknows, hnext⟩ := hrep
  have hspace : data.length ≤ r.size - r.transferred := by
    unfold Reading.space at hle
    omega
  have hheld := hholds.length_le
  have hfit : held.length + data.length ≤ size := by omega
  obtain ⟨raw, hw, hraw⟩ := writeAt_holds hholds hfit
  rw [← hlen] at hw
  obtain ⟨s, hf, hs, hrem, hk⟩ := B.fill hw
  subst hs
  have hlen' : B.remainLen s + (r.transferred + data.length) = (held ++ data).length := by
    rw [List.length_append, hrem]
    omega
  have hknows' := hk _ (B.knows_append data hnext hknows)
  constructor
  · intro hmore
    obtain ⟨s', hc, hraw', hrem', hk'⟩ := B.completion_more hraw hlen' hknows' hmore
    have hlt := B.length_lt hraw hmore
    refine ⟨⟨s', r.size, r.transferred + data.length, defaultMaxTransferSize⟩, ?_, ?_⟩
    · exact IUnpacker.receive_waits hf hc (by decide) (by omega)
    · exact ⟨hraw' ▸ hraw, by rw [hrem']; exact hlen', by rw [hrem', hrem]; exact hsize, rfl, hk',
        hmore⟩
  · intro hmore
    obtain ⟨s', hc, hraw', hrem', hk'⟩ := B.completion_ready hraw hlen' hknows' hmore
    exact ⟨s', IUnpacker.receive_handles hf hc (.inl rfl), hraw' ▸ hraw,
      by rw [hrem']; exact hlen', hk'⟩

/-- A buffering unpacker cuts the stream like its framer. -/
theorem implements [DecidablePred aborts] (s₀ : σ) (hrem : B.remainLen s₀ = 0)
    (hknows : B.knows s₀ []) : Implements U f B.Rep (outcome size aborts) s₀ where
  start := by
    obtain ⟨r, hd, hrep⟩ := B.doRecvMsg_more (B.rawBuff s₀).holds_nil hrem hknows B.more
    refine ⟨r, ?_, hrep⟩
    simp only [IUnpacker.start, hd]
  more := B.more
  space := by
    intro r held hrep
    have hlt := B.length_lt hrep.holds hrep.next
    have hlen := hrep.length
    have hdef : defaultMaxTransferSize = 65536 := rfl
    rw [Reading.space, hrep.maxSize, hrep.size]
    omega
  receive := by
    intro r held data hrep _ _ hle hstop
    by_cases hmore : f.next (held ++ data) = .more
    · obtain ⟨r', hrec, hrep'⟩ := (B.receive_eq hrep hle).1 hmore
      rw [Framer.cut_more hmore]
      exact ⟨r', hrec, hrep'⟩
    · obtain ⟨s, hrec, hholds, hlen, hready⟩ := (B.receive_eq hrep hle).2 hmore
      rw [hrec]
      exact B.recvHandler_more hholds hlen hready hmore hstop
  receive_stop := by
    intro r held e data hrep _ _ hle hstop
    by_cases hmore : f.next (held ++ data) = .more
    · rw [Framer.cut_more hmore] at hstop
      cases hstop
    · obtain ⟨s, hrec, hholds, hlen, hready⟩ := (B.receive_eq hrep hle).2 hmore
      rw [hrec]
      exact B.recvHandler_stop hholds hlen hready hmore hstop
  ended := by
    intro e ms rest r
    unfold outcome
    split
    · exact ⟨by simp, by simp⟩
    · split
      · exact ⟨by simp, by simp⟩
      · exact ⟨by simp, by simp⟩

/-- What is kept is in the buffer. -/
theorem rest_le [DecidablePred aborts] (s₀ : σ) (hrem : B.remainLen s₀ = 0)
    (hknows : B.knows s₀ []) {l : Link σ μ} (h : Reach U.step always (U.start s₀) l) :
    (f.cut l.arrived).rest.length ≤ size := by
  have hU := B.implements s₀ hrem hknows
  refine h.invariant (P := fun l => (f.cut l.arrived).rest.length ≤ size) ?_ ?_
  · rw [show (U.start s₀).arrived = [] from rfl, Framer.cut_more B.more]
    exact Nat.zero_le _
  · intro l a l' hl ih _ hs
    cases a with
    | data bytes =>
      obtain ⟨r, hr, _, hle, rfl⟩ := U.step_data hs
      obtain ⟨hstop, _, hrep⟩ := (hU.sound hl).of_reading hU hr
      have hrest := Framer.length_rest_le (f := f) ((f.cut l.arrived).rest ++ bytes)
      have hlen := hrep.length
      have hsize := hrep.size
      have hheld := hrep.holds.length_le
      unfold Reading.space at hle
      rw [Framer.cut_append _ _ hstop]
      rw [List.length_append] at hrest
      simp only
      omega
    | error =>
      obtain ⟨r, _, rfl⟩ := U.step_error hs
      exact ih

end Buffered

end AsioTcp.Wrapper
