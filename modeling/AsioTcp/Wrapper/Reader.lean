import AsioTcp.Lib.StreamFramer
import AsioTcp.Lib.Transition

/-!
# The reading side of `st_tcp_socket_base`

`do_recv_msg` and `recv_handler` over any unpacker, with `async_read` in
between: it asks the completion condition before it reads and after each piece
that arrives, and ends when the answer is zero or its buffer is full. `on_msg`
is the one that takes every message at once, so `dispatch_msg` starts the next
read before `recv_handler` goes on.

An unpacker that `Implements` a framer cuts the bytes of a connection as the
framer does, however they arrive (`Implements.sound`).
-/

namespace AsioTcp.Wrapper

open StreamFramer Transition

/-- What ends the process. -/
inductive Fault
  | assertion
  /-- an access outside a buffer -/
  | overrun
  deriving DecidableEq, Repr

/-- `assert` -/
def check (p : Prop) [Decidable p] : Except Fault Unit :=
  if p then .ok () else .error .assertion

theorem check_of {p : Prop} [Decidable p] (h : p) : check p = .ok () := if_pos h

theorem check_of_not {p : Prop} [Decidable p] (h : ¬ p) : check p = .error .assertion := if_neg h

/-- `boost::asio::detail::default_max_transfer_size` -/
def defaultMaxTransferSize : Nat := 65536

/-- `i_unpacker`, over the members `σ` of its class. -/
structure IUnpacker (σ μ : Type) where
  parseMsg : σ → Nat → Except Fault (Bool × List μ × σ)
  /-- called without an error -/
  completionCondition : σ → Nat → Except Fault (Nat × σ)
  /-- the size of the buffer that it gives -/
  prepareNextRecv : σ → Except Fault Nat
  /-- a piece of the stream is put at a place in that buffer -/
  fill : σ → Nat → List UInt8 → Except Fault σ

/-- An `async_read` in progress: the size of its buffer, how much has been
transferred and the last answer of the completion condition. -/
structure Reading (σ : Type) where
  unpacker : σ
  size : Nat
  transferred : Nat
  maxSize : Nat
  deriving DecidableEq, Repr

/-- How much `async_read_some` may bring next. -/
def Reading.space {σ : Type} (r : Reading σ) : Nat := min r.maxSize (r.size - r.transferred)

inductive Phase (σ : Type)
  | reading (r : Reading σ)
  /-- no buffer to read into, and nothing reads any more -/
  | idle
  /-- `on_recv_error` -/
  | recvError
  /-- `on_unpack_error` -/
  | unpackError
  | fault (e : Fault)
  deriving DecidableEq, Repr

namespace IUnpacker

variable {σ μ : Type} (U : IUnpacker σ μ)

def doRecvMsg (s : σ) : Except Fault (Phase σ) := do
  let size ← U.prepareNextRecv s
  if size > 0 then
    let (maxSize, s) ← U.completionCondition s 0
    -- a read that is complete at once transfers nothing, which the handler takes for an error
    return if maxSize = 0 then .recvError else .reading ⟨s, size, 0, maxSize⟩
  else return .idle

/-- `recv_handler`, without an error and with some bytes; by the messages that
`on_msg` gets. -/
def recvHandler (s : σ) (bytesTransferred : Nat) : List μ × Phase σ :=
  match U.parseMsg s bytesTransferred with
  | .error e => ([], .fault e)
  | .ok (unpackOk, msgs, s) =>
    match U.doRecvMsg s with
    | .error e => (msgs, .fault e)
    | .ok phase => (msgs, if unpackOk then phase else .unpackError)

/-- A piece of the stream arrives. -/
def receive (r : Reading σ) (data : List UInt8) : List μ × Phase σ :=
  match U.fill r.unpacker r.transferred data with
  | .error e => ([], .fault e)
  | .ok s =>
    let transferred := r.transferred + data.length
    match U.completionCondition s transferred with
    | .error e => ([], .fault e)
    | .ok (maxSize, s) =>
      if maxSize = 0 ∨ transferred = r.size then U.recvHandler s transferred
      else ([], .reading ⟨s, r.size, transferred, maxSize⟩)

section
variable {U} {s s' : σ} {r : Reading σ} {data : List UInt8}

theorem doRecvMsg_reading {size maxSize : Nat} (hp : U.prepareNextRecv s = .ok size)
    (hpos : 0 < size) (hc : U.completionCondition s 0 = .ok (maxSize, s')) (hmax : maxSize ≠ 0) :
    U.doRecvMsg s = .ok (.reading ⟨s', size, 0, maxSize⟩) := by
  simp only [doRecvMsg, hp, bind, Except.bind, if_pos hpos, hc, if_neg hmax]
  rfl

theorem doRecvMsg_fault {size : Nat} {e : Fault} (hp : U.prepareNextRecv s = .ok size)
    (hpos : 0 < size) (hc : U.completionCondition s 0 = .error e) : U.doRecvMsg s = .error e := by
  simp only [doRecvMsg, hp, bind, Except.bind, if_pos hpos, hc]

theorem recvHandler_ok {n : Nat} {msgs : List μ} {phase : Phase σ}
    (hp : U.parseMsg s n = .ok (true, msgs, s')) (hd : U.doRecvMsg s' = .ok phase) :
    U.recvHandler s n = (msgs, phase) := by
  simp only [recvHandler, hp, hd, if_true]

theorem recvHandler_fails {n : Nat} {msgs : List μ} {phase : Phase σ}
    (hp : U.parseMsg s n = .ok (false, msgs, s')) (hd : U.doRecvMsg s' = .ok phase) :
    U.recvHandler s n = (msgs, .unpackError) := by
  simp only [recvHandler, hp, hd, Bool.false_eq_true, if_false]

theorem recvHandler_next_fault {n : Nat} {ok : Bool} {msgs : List μ} {e : Fault}
    (hp : U.parseMsg s n = .ok (ok, msgs, s')) (hd : U.doRecvMsg s' = .error e) :
    U.recvHandler s n = (msgs, .fault e) := by
  simp only [recvHandler, hp, hd]

theorem recvHandler_parse_fault {n : Nat} {e : Fault} (hp : U.parseMsg s n = .error e) :
    U.recvHandler s n = ([], .fault e) := by
  simp only [recvHandler, hp]

theorem receive_waits {maxSize : Nat} (hf : U.fill r.unpacker r.transferred data = .ok s)
    (hc : U.completionCondition s (r.transferred + data.length) = .ok (maxSize, s'))
    (hmax : maxSize ≠ 0) (hlt : r.transferred + data.length ≠ r.size) :
    U.receive r data = ([], .reading ⟨s', r.size, r.transferred + data.length, maxSize⟩) := by
  simp only [receive, hf, hc, if_neg (not_or.mpr ⟨hmax, hlt⟩)]

theorem receive_handles {maxSize : Nat} (hf : U.fill r.unpacker r.transferred data = .ok s)
    (hc : U.completionCondition s (r.transferred + data.length) = .ok (maxSize, s'))
    (h : maxSize = 0 ∨ r.transferred + data.length = r.size) :
    U.receive r data = U.recvHandler s' (r.transferred + data.length) := by
  simp only [receive, hf, hc, if_pos h]

end

end IUnpacker

/-- One direction of a connection, seen by the reader. -/
structure Link (σ μ : Type) where
  /-- all that has arrived -/
  arrived : List UInt8
  /-- the messages that `on_msg` has got -/
  delivered : List μ
  phase : Phase σ
  deriving DecidableEq, Repr

inductive Arrival
  | data (bytes : List UInt8)
  /-- the read ends with an error -/
  | error
  deriving DecidableEq, Repr

namespace IUnpacker

variable {σ μ : Type} (U : IUnpacker σ μ)

def step (l : Link σ μ) : Arrival → Option (Link σ μ)
  | .data bytes =>
    match l.phase with
    | .reading r =>
      if bytes ≠ [] ∧ bytes.length ≤ r.space then
        some ⟨l.arrived ++ bytes, l.delivered ++ (U.receive r bytes).1, (U.receive r bytes).2⟩
      else none
    | _ => none
  | .error =>
    match l.phase with
    | .reading _ => some { l with phase := .recvError }
    | _ => none

/-- A connection has been made and `do_recv_msg` is called for the first time. -/
def start (s : σ) : Link σ μ :=
  ⟨[], [], match U.doRecvMsg s with | .ok phase => phase | .error e => .fault e⟩

theorem step_data {l l' : Link σ μ} {bytes : List UInt8} (h : U.step l (.data bytes) = some l') :
    ∃ r, l.phase = .reading r ∧ bytes ≠ [] ∧ bytes.length ≤ r.space ∧
      l' = ⟨l.arrived ++ bytes, l.delivered ++ (U.receive r bytes).1, (U.receive r bytes).2⟩ := by
  simp only [step] at h
  split at h
  · rename_i r hr
    split at h
    · rename_i hguard
      exact ⟨r, hr, hguard.1, hguard.2, (Option.some.inj h).symm⟩
    · cases h
  · cases h

theorem step_error {l l' : Link σ μ} (h : U.step l .error = some l') :
    ∃ r, l.phase = .reading r ∧ l' = { l with phase := .recvError } := by
  simp only [step] at h
  split at h
  · rename_i r hr
    exact ⟨r, hr, (Option.some.inj h).symm⟩
  · cases h

end IUnpacker

/-! ## Unpackers that cut like a framer -/

section
variable {σ μ ε : Type}

/-- `rep r held`: the read `r` is waiting with the bytes `held` of a message
that is not complete. `outcome e ms rest` is how it ends, with the messages
`ms` before and the bytes `rest` kept, when the framer stops for `e`. -/
structure Implements (U : IUnpacker σ μ) (f : Framer UInt8 μ ε)
    (rep : Reading σ → List UInt8 → Prop) (outcome : ε → List μ → List UInt8 → List μ × Phase σ)
    (s₀ : σ) : Prop where
  start : ∃ r, U.start s₀ = ⟨[], [], .reading r⟩ ∧ rep r []
  more : f.next [] = .more
  space : ∀ {r held}, rep r held → 0 < r.space
  receive : ∀ {r held} data, rep r held → f.next held = .more → data ≠ [] →
    data.length ≤ r.space → (f.cut (held ++ data)).stop = none →
    ∃ r', U.receive r data = ((f.cut (held ++ data)).messages, .reading r') ∧
      rep r' (f.cut (held ++ data)).rest
  receive_stop : ∀ {r held e} data, rep r held → f.next held = .more → data ≠ [] →
    data.length ≤ r.space → (f.cut (held ++ data)).stop = some e →
    U.receive r data = outcome e (f.cut (held ++ data)).messages (f.cut (held ++ data)).rest
  ended : ∀ e ms rest r, (outcome e ms rest).2 ≠ .reading r ∧ (outcome e ms rest).2 ≠ .recvError

/-- What has been delivered, by all that has arrived. -/
structure Sound (f : Framer UInt8 μ ε) (rep : Reading σ → List UInt8 → Prop)
    (outcome : ε → List μ → List UInt8 → List μ × Phase σ) (l : Link σ μ) : Prop where
  going : (f.cut l.arrived).stop = none → l.delivered = (f.cut l.arrived).messages ∧
    (l.phase = .recvError ∨ ∃ r, l.phase = .reading r ∧ rep r (f.cut l.arrived).rest)
  stopped : ∀ e, (f.cut l.arrived).stop = some e → ∃ before last,
    (f.cut l.arrived).messages = before ++ last ∧
      l.delivered = before ++ (outcome e last (f.cut l.arrived).rest).1 ∧
      l.phase = (outcome e last (f.cut l.arrived).rest).2

variable {U : IUnpacker σ μ} {f : Framer UInt8 μ ε} {rep : Reading σ → List UInt8 → Prop}
  {outcome : ε → List μ → List UInt8 → List μ × Phase σ} {s₀ : σ} {l l' : Link σ μ}

theorem Implements.sound_start (hU : Implements U f rep outcome s₀) :
    Sound f rep outcome (U.start s₀) := by
  obtain ⟨r, hr, hrep⟩ := hU.start
  rw [hr]
  have hcut := Framer.cut_more hU.more
  constructor
  · intro _
    rw [hcut]
    exact ⟨rfl, .inr ⟨r, rfl, hrep⟩⟩
  · intro e he
    rw [hcut] at he
    cases he

/-- A reader that reads has not been stopped. -/
theorem Sound.of_reading (hU : Implements U f rep outcome s₀) (h : Sound f rep outcome l)
    {r : Reading σ} (hr : l.phase = .reading r) :
    (f.cut l.arrived).stop = none ∧ l.delivered = (f.cut l.arrived).messages ∧
      rep r (f.cut l.arrived).rest := by
  cases hstop : (f.cut l.arrived).stop with
  | none =>
    obtain ⟨hdel, hphase | ⟨r', hr', hrep⟩⟩ := h.going hstop
    · rw [hr] at hphase
      cases hphase
    · rw [hr] at hr'
      cases hr'
      exact ⟨rfl, hdel, hrep⟩
  | some e =>
    obtain ⟨_, last, _, _, hphase⟩ := h.stopped e hstop
    exact absurd (hphase.symm.trans hr) (hU.ended e last _ r).1

theorem Implements.sound_data (hU : Implements U f rep outcome s₀) (h : Sound f rep outcome l)
    {bytes : List UInt8} (hs : U.step l (.data bytes) = some l') : Sound f rep outcome l' := by
  obtain ⟨r, hr, hne, hle, rfl⟩ := U.step_data hs
  obtain ⟨hstop, hdel, hrep⟩ := h.of_reading hU hr
  have hmore := Framer.next_rest_of_none hstop
  have hcut := Framer.cut_append l.arrived bytes hstop
  constructor
  · intro hgo
    rw [hcut] at hgo ⊢
    obtain ⟨r', hrec, hrep'⟩ := hU.receive bytes hrep hmore hne hle hgo
    rw [hrec, hdel]
    exact ⟨rfl, .inr ⟨r', rfl, hrep'⟩⟩
  · intro e he
    rw [hcut] at he ⊢
    have hrec := hU.receive_stop bytes hrep hmore hne hle he
    refine ⟨(f.cut l.arrived).messages, _, rfl, ?_, ?_⟩
    · rw [hrec, hdel]
    · rw [hrec]

theorem Implements.sound_error (hU : Implements U f rep outcome s₀) (h : Sound f rep outcome l)
    (hs : U.step l .error = some l') : Sound f rep outcome l' := by
  obtain ⟨r, hr, rfl⟩ := U.step_error hs
  obtain ⟨hstop, hdel, _⟩ := h.of_reading hU hr
  constructor
  · intro _
    exact ⟨hdel, .inl rfl⟩
  · intro e he
    rw [hstop] at he
    cases he

/-- Over every run: what has been delivered depends on the bytes that have
arrived and not on how they came. -/
theorem Implements.sound (hU : Implements U f rep outcome s₀)
    (h : Reach U.step always (U.start s₀) l) : Sound f rep outcome l := by
  refine h.invariant hU.sound_start fun l a l' _ ih _ hs => ?_
  cases a with
  | data bytes => exact hU.sound_data ih hs
  | error => exact hU.sound_error ih hs

/-- A reader that reads takes any piece that fits, and some piece fits. -/
theorem Implements.accepts (hU : Implements U f rep outcome s₀)
    (h : Reach U.step always (U.start s₀) l) {r : Reading σ} (hr : l.phase = .reading r) :
    0 < r.space ∧ ∀ bytes, bytes ≠ [] → bytes.length ≤ r.space →
      ∃ l', U.step l (.data bytes) = some l' := by
  obtain ⟨_, _, hrep⟩ := (hU.sound h).of_reading hU hr
  refine ⟨hU.space hrep, fun bytes hne hle => ?_⟩
  simp only [IUnpacker.step, hr, if_pos (And.intro hne hle)]
  exact ⟨_, rfl⟩

end

end AsioTcp.Wrapper
