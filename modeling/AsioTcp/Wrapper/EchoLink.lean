import AsioTcp.Wrapper.EchoSocket

/-!
# `echo_socket` and its unpacker

`recv_handler` in one machine with what it sets off: it gives the messages that
it has parsed to `dispatch_msg`, which begins the next read when `on_msg` has
taken them all, maybe out of timer 0 long after. What the unpacker does is a run
of a `Link` (`reach_link`) and the rest one of an `EchoSocket` (`reach_sides`),
so that what goes back is what has arrived (`echo_stream`).
-/

namespace AsioTcp.Wrapper

open Transition

/-- What the unpacker is at. -/
inductive Intake (c : Config)
  | reading (r : Reading (Unpacker c))
  /-- all that has been read is parsed, and the next read has yet to begin -/
  | parsed (u : Unpacker c)
  /-- nothing more is parsed, after an error of the read or of the unpacker, or
  because the process has ended -/
  | ended

namespace Intake

variable {c : Config}

/-- `do_recv_msg`, out of `do_start` -/
def doRecvMsg : Intake c → Intake c
  | .parsed u =>
    match (Unpacker.interface c).doRecvMsg u with
    | .ok (.reading r) => .reading r
    | _ => .ended
  | intake => intake

/-- The `reset_state` of the unpacker in `clean_up` -/
def resetState : Intake c → Intake c
  | .reading r => .reading { r with unpacker := .resetState r.unpacker.rawBuff }
  | .parsed u => .parsed (.resetState u.rawBuff)
  | .ended => .ended

def isEnded : Intake c → Bool
  | .ended => true
  | _ => false

/-- What the reader of a `Link` is at in the meantime; it begins the next read at
once. -/
def At : Intake c → Phase (Unpacker c) → Prop
  | .reading r, phase => phase = .reading r
  | .parsed u, phase => phase = ((Unpacker.interface c).start u).phase
  | .ended, _ => True

theorem doRecvMsg_at {intake : Intake c} {phase : Phase (Unpacker c)} (h : intake.At phase) :
    intake.doRecvMsg.At phase := by
  cases intake with
  | reading r => exact h
  | parsed u =>
    simp only [doRecvMsg]
    simp only [At, IUnpacker.start] at h
    split
    · rename_i r hread
      rw [hread] at h
      exact h
    · trivial
  | ended => trivial

end Intake

/-- An echo socket with its unpacker, and all that has arrived. -/
structure EchoLink (c : Config) where
  arrived : List UInt8
  intake : Intake c
  sides : EchoSocket

namespace EchoLink

inductive Action
  /-- a piece of the stream -/
  | data (bytes : List UInt8)
  /-- the read ends with an error -/
  | error
  /-- anything else that happens to the socket -/
  | other (a : EchoSocket.Action)

variable {c : Config} (maxMsgNum : Nat)

/-- `recv_handler`, without an error and with some bytes, up to `dispatch_msg`.
With an unpack error the reading ends here: `on_unpack_error` closes the link. -/
def recvHandler (s : EchoLink c) (u : Unpacker c) (bytesTransferred : Nat) :
    Option (EchoLink c) :=
  match (Unpacker.interface c).parseMsg u bytesTransferred with
  | .error _ => some { s with intake := .ended }
  | .ok (unpackOk, msgs, u) =>
    (s.sides.step c maxMsgNum (.recv (.recvHandler msgs unpackOk))).map fun sides =>
      { s with sides, intake := if unpackOk then .parsed u else .ended }

/-- A piece of the stream comes into the read `r`. -/
def receive (s : EchoLink c) (r : Reading (Unpacker c)) (bytes : List UInt8) :
    Option (EchoLink c) :=
  match (Unpacker.interface c).fill r.unpacker r.transferred bytes with
  | .error _ => some { s with intake := .ended }
  | .ok u =>
    let transferred := r.transferred + bytes.length
    match (Unpacker.interface c).completionCondition u transferred with
    | .error _ => some { s with intake := .ended }
    | .ok (maxSize, u) =>
      if maxSize = 0 ∨ transferred = r.size then s.recvHandler maxMsgNum u transferred
      else some { s with intake := .reading ⟨u, r.size, transferred, maxSize⟩ }

/-- What happens to the socket beside `recv_handler`. -/
def otherAllowed : EchoSocket.Action → Bool
  | .recv (.recvHandler _ _) => false
  | .recv .recvError => false
  | _ => true

/-- What the unpacker is at when one of these has led to `sides`. -/
def intakeAfter (s : EchoLink c) (sides : EchoSocket) : EchoSocket.Action → Intake c
  | .recv (.finishes _) =>
    -- the end of `dispatch_msg` has called `do_start`
    if s.sides.recv.reads < sides.recv.reads then s.intake.doRecvMsg else s.intake
  | .recv .resetState => s.intake.resetState
  | _ => s.intake

def step (s : EchoLink c) : Action → Option (EchoLink c)
  | .data bytes =>
    match s.intake with
    | .reading r =>
      if bytes ≠ [] ∧ bytes.length ≤ r.space then
        { s with arrived := s.arrived ++ bytes }.receive maxMsgNum r bytes
      else none
    | _ => none
  | .error => (s.sides.step c maxMsgNum (.recv .recvError)).map fun sides =>
      { s with sides, intake := .ended }
  | .other a =>
    if otherAllowed a then
      (s.sides.step c maxMsgNum a).map fun sides =>
        { s with sides, intake := s.intakeAfter sides a }
    else none

/-- The socket has been started: the first read is under way. -/
def start (raw : Buffer UInt8 c.msgBufferSize) : EchoLink c :=
  ⟨[], (Intake.parsed (.resetState raw)).doRecvMsg, .start⟩

/-- The link is cleaned up only when nothing more is read, and its state is not
reset while messages wait in the post buffer. -/
def Alive (s : EchoLink c) : Action → Prop
  | .other (.recv .resetState) => s.intake.isEnded = true
  | .other a => s.sides.Alive a
  | _ => True

instance (s : EchoLink c) (a : Action) : Decidable (Alive s a) := by
  unfold Alive
  split <;> infer_instance

variable {maxMsgNum} {s t : EchoLink c}

/-! ## `recv_handler` -/

/-- What has come of a piece or of a read, where the reader of a `Link` gives
`out`. -/
structure Received (maxMsgNum : Nat) (s t : EchoLink c) (out : List Msg × Phase (Unpacker c)) :
    Prop where
  sides : Reach (EchoSocket.step c maxMsgNum) EchoSocket.Alive s.sides t.sides
  arrived : t.arrived = s.arrived
  unpacked : t.sides.recv.unpacked = s.sides.recv.unpacked ++ out.1
  intake : t.intake.At out.2

/-- Nothing has been parsed. -/
theorem Received.nothing {intake : Intake c} {phase : Phase (Unpacker c)} (h : intake.At phase) :
    Received maxMsgNum s { s with intake } ([], phase) :=
  ⟨.refl, rfl, (List.append_nil _).symm, h⟩

theorem recvHandler_received {u : Unpacker c} {n : Nat}
    (h : s.recvHandler maxMsgNum u n = some t) :
    Received maxMsgNum s t ((Unpacker.interface c).recvHandler u n) := by
  unfold recvHandler at h
  split at h
  · rename_i e hparse
    cases h
    rw [IUnpacker.recvHandler_parse_fault hparse]
    exact .nothing trivial
  · rename_i unpackOk msgs u' hparse
    obtain ⟨sides, hs, rfl⟩ := Option.map_eq_some_iff.mp h
    have hreach : Reach (EchoSocket.step c maxMsgNum) EchoSocket.Alive s.sides sides :=
      .single (a := .recv (.recvHandler msgs unpackOk)) trivial hs
    obtain ⟨recv, hrecv, rfl⟩ := Option.map_eq_some_iff.mp hs
    have hmsgs := (RecvSide.step_front hrecv).1
    cases hread : (Unpacker.interface c).doRecvMsg u' with
    | error e =>
      rw [IUnpacker.recvHandler_next_fault hparse hread]
      refine ⟨hreach, rfl, hmsgs, ?_⟩
      cases unpackOk with
      | true => simp only [if_true, Intake.At, IUnpacker.start, hread]
      | false => trivial
    | ok phase =>
      cases unpackOk with
      | true =>
        rw [IUnpacker.recvHandler_ok hparse hread]
        refine ⟨hreach, rfl, hmsgs, ?_⟩
        simp only [if_true, Intake.At, IUnpacker.start, hread]
      | false =>
        rw [IUnpacker.recvHandler_fails hparse hread]
        exact ⟨hreach, rfl, hmsgs, trivial⟩

theorem receive_received {r : Reading (Unpacker c)} {bytes : List UInt8}
    (h : s.receive maxMsgNum r bytes = some t) :
    Received maxMsgNum s t ((Unpacker.interface c).receive r bytes) := by
  unfold receive at h
  split at h
  · rename_i e hfill
    cases h
    have hfault : (Unpacker.interface c).receive r bytes = ([], .fault e) := by
      simp only [IUnpacker.receive, hfill]
    rw [hfault]
    exact .nothing trivial
  · rename_i u hfill
    dsimp only at h
    split at h
    · rename_i e hcond
      cases h
      have hfault : (Unpacker.interface c).receive r bytes = ([], .fault e) := by
        simp only [IUnpacker.receive, hfill, hcond]
      rw [hfault]
      exact .nothing trivial
    · rename_i maxSize u' hcond
      split at h
      · rename_i hdone
        rw [IUnpacker.receive_handles hfill hcond hdone]
        exact recvHandler_received h
      · rename_i hmore
        cases h
        obtain ⟨hmax, hroom⟩ := not_or.mp hmore
        rw [IUnpacker.receive_waits hfill hcond hmax hroom]
        exact .nothing rfl

/-- A piece comes into a read that is under way and has room for it. -/
theorem step_data {bytes : List UInt8} (h : step maxMsgNum s (.data bytes) = some t) :
    ∃ r, s.intake = .reading r ∧ bytes ≠ [] ∧ bytes.length ≤ r.space ∧
      Received maxMsgNum { s with arrived := s.arrived ++ bytes } t
        ((Unpacker.interface c).receive r bytes) := by
  simp only [step] at h
  split at h
  · rename_i r hr
    split at h
    · rename_i hfits
      exact ⟨r, hr, hfits.1, hfits.2, receive_received h⟩
    · cases h
  · cases h

theorem step_other {a : EchoSocket.Action} (h : step maxMsgNum s (.other a) = some t) :
    otherAllowed a = true ∧ ∃ sides, s.sides.step c maxMsgNum a = some sides ∧
      t = { s with sides, intake := s.intakeAfter sides a } := by
  simp only [step] at h
  split at h
  · rename_i hother
    obtain ⟨sides, hs, rfl⟩ := Option.map_eq_some_iff.mp h
    exact ⟨hother, sides, hs, rfl⟩
  · cases h

/-! ## The socket -/

theorem step_sides {a : Action} (hok : Alive s a) (h : step maxMsgNum s a = some t) :
    Reach (EchoSocket.step c maxMsgNum) EchoSocket.Alive s.sides t.sides := by
  cases a with
  | data bytes =>
    obtain ⟨_, _, _, _, hreceived⟩ := step_data h
    exact hreceived.sides
  | error =>
    obtain ⟨sides, hs, rfl⟩ := Option.map_eq_some_iff.mp h
    exact .single (a := .recv .recvError) trivial hs
  | other a =>
    obtain ⟨_, sides, hs, rfl⟩ := step_other h
    refine .single ?_ hs
    cases a with
    | recv a => trivial
    | send a => exact hok
    | onMsg | onMsgRest => trivial

theorem reach_sides {raw : Buffer UInt8 c.msgBufferSize}
    (h : Reach (step maxMsgNum) Alive (start raw) s) :
    Reach (EchoSocket.step c maxMsgNum) EchoSocket.Alive EchoSocket.start s.sides :=
  h.simulate EchoLink.sides rfl fun _ _ _ _ hok hs => step_sides hok hs

/-! ## The unpacker -/

/-- Beside `recv_handler` nothing comes in. -/
theorem other_unpacked {sides sides' : EchoSocket} {a : EchoSocket.Action}
    (hother : otherAllowed a = true) (h : sides.step c maxMsgNum a = some sides') :
    sides'.recv.unpacked = sides.recv.unpacked := by
  cases a with
  | recv a =>
    simp only [EchoSocket.step] at h
    split at h
    · obtain ⟨recv, hrecv, rfl⟩ := Option.map_eq_some_iff.mp h
      have hbrings : a.brings = [] := by
        cases a with
        | recvHandler => cases hother
        | _ => rfl
      have hmsgs := (RecvSide.step_front hrecv).1
      rwa [hbrings, List.append_nil] at hmsgs
    · cases h
  | send a =>
    simp only [EchoSocket.step] at h
    split at h
    · obtain ⟨send, _, rfl⟩ := Option.map_eq_some_iff.mp h
      rfl
    · cases h
  | onMsg i =>
    obtain ⟨⟨k, d⟩, _, h⟩ := Option.bind_eq_some_iff.mp h
    dsimp only at h
    split at h
    · cases h
    · obtain ⟨msg, _, rfl⟩ := Option.map_eq_some_iff.mp h
      split <;> rfl
  | onMsgRest =>
    obtain ⟨⟨i, k, d, msg⟩, _, h⟩ := Option.bind_eq_some_iff.mp h
    obtain ⟨send, _, rfl⟩ := Option.map_eq_some_iff.mp h
    rfl

/-- The link that has delivered what has been unpacked. -/
def Delivers (raw : Buffer UInt8 c.msgBufferSize) (s : EchoLink c) : Prop :=
  ∃ l, Reach (Unpacker.interface c).step always ((Unpacker.interface c).start (.resetState raw)) l ∧
    l.arrived = s.arrived ∧ l.delivered = s.sides.recv.unpacked ∧ s.intake.At l.phase

variable {raw : Buffer UInt8 c.msgBufferSize}

theorem step_delivers {a : Action} (hok : Alive s a) (h : step maxMsgNum s a = some t)
    (hs : Delivers raw s) : Delivers raw t := by
  obtain ⟨l, hl, harrived, hdelivered, hat⟩ := hs
  cases a with
  | data bytes =>
    obtain ⟨r, hr, hne, hle, hreceived⟩ := step_data h
    have hphase : l.phase = .reading r := by
      rw [hr] at hat
      exact hat
    have hstep : (Unpacker.interface c).step l (.data bytes) =
        some ⟨l.arrived ++ bytes, l.delivered ++ ((Unpacker.interface c).receive r bytes).1,
          ((Unpacker.interface c).receive r bytes).2⟩ := by
      simp only [IUnpacker.step, hphase, if_pos (And.intro hne hle)]
    refine ⟨_, hl.tail trivial hstep, ?_, ?_, hreceived.intake⟩
    · rw [hreceived.arrived, harrived]
    · rw [hreceived.unpacked, hdelivered]
  | error =>
    obtain ⟨sides, hsides, rfl⟩ := Option.map_eq_some_iff.mp h
    obtain ⟨recv, hrecv, rfl⟩ := Option.map_eq_some_iff.mp hsides
    have hmsgs := (RecvSide.step_front hrecv).1
    refine ⟨l, hl, harrived, ?_, trivial⟩
    rw [hdelivered]
    exact (hmsgs.trans (List.append_nil _)).symm
  | other a =>
    obtain ⟨hother, sides, hsides, rfl⟩ := step_other h
    refine ⟨l, hl, harrived, hdelivered.trans (other_unpacked hother hsides).symm, ?_⟩
    unfold intakeAfter
    split
    · split
      · exact Intake.doRecvMsg_at hat
      · exact hat
    · -- the unpacker is reset only when nothing is read any more
      have hended : s.intake = .ended := by
        cases hin : s.intake with
        | ended => rfl
        | reading | parsed =>
          simp only [Alive, hin] at hok
          cases hok
      rw [hended]
      trivial
    · exact hat

/-- What a run has unpacked is what a reader delivers that is given the same
bytes. -/
theorem reach_link (h : Reach (step maxMsgNum) Alive (start raw) s) : Delivers raw s := by
  refine h.invariant ⟨_, .refl, rfl, rfl, ?_⟩ fun _ _ _ _ hs hok hstep => step_delivers hok hstep hs
  have hparsed : (Intake.parsed (.resetState raw)).At
      ((Unpacker.interface c).start (.resetState raw)).phase := rfl
  exact Intake.doRecvMsg_at hparsed

/-- **From bytes to bytes**: whatever pieces arrive, what is handed to
`async_write` is what has arrived, to the byte and in order; and when nothing
waits and the socket reads, all has gone back but a part of a message. -/
theorem echo_stream (c : Config) (maxMsgNum : Nat) (raw : Buffer UInt8 c.msgBufferSize)
    (s : EchoLink c) (h : Reach (step maxMsgNum) Alive (start raw) s) :
    s.sides.send.sent.flatten <+: s.arrived ∧
      (s.sides.recv.tempMsgBuffer = [] → s.sides.send.sendMsgBuffer = [] →
        s.sides.send.postMsgBuffer = [] → ∃ rest, s.arrived = s.sides.send.sent.flatten ++ rest ∧
          ∀ r, s.intake = .reading r → Unpacker.Incomplete c rest) := by
  obtain ⟨l, hl, harrived, hdelivered, hat⟩ := reach_link h
  obtain ⟨hpack, hrest⟩ := Unpacker.arrived_eq hl
  rw [hdelivered] at hpack hrest
  obtain ⟨hsent, hall⟩ := EchoSocket.echoed (reach_sides h) hpack
  rw [harrived] at hrest
  constructor
  · rw [hrest]
    exact hsent.trans (List.prefix_append _ _)
  · intro htemp hsend hpost
    refine ⟨((Unpacker.framer c).cut s.arrived).rest, ?_, fun r hr => ?_⟩
    · rw [hall htemp hsend hpost]
      exact hrest
    · rw [hr] at hat
      rw [← harrived]
      exact Unpacker.incomplete_of_reading hl hat

/-- Four messages and a part of another in two pieces, and a send buffer for one:
the last message waits for timer 0, after which the next read begins. -/
example : ∃ (c : Config) (s : EchoLink c) (rest : List UInt8),
    s.arrived = [0, 3, 65, 0, 3, 66, 0, 3, 67, 0, 3, 68, 0, 5, 1] ∧
    s.sides.send.sent.flatten <+: s.arrived ∧ s.arrived = s.sides.send.sent.flatten ++ rest ∧
    Unpacker.Incomplete c rest := by
  let c : Config := ⟨2, 16, by decide, by decide, by decide, by decide⟩
  let acts : List Action := [.data [0, 3, 65, 0, 3, 66, 0, 3, 67, 0, 3, 68, 0],
    .other (.onMsg 0), .other (.onMsg 0), .other (.onMsg 0), .other .onMsgRest,
    .other (.recv (.scanEnds 0 true)), .other (.recv (.finishes 0)),
    .other (.send (.sendHandler 0 false)), .other (.send .timerExpires), .other (.send .onTimer),
    .other (.send (.sendHandler 0 false)), .other (.recv .timer0Expires), .other (.recv .onTimer0),
    .other (.onMsg 0), .other (.recv (.scanEnds 0 false)), .other (.recv (.finishes 0)),
    .other (.send (.sendHandler 0 false)), .data [5, 1]]
  have hrun : (exec (guarded (step 1) Alive) (start (c := c) (.filled 0)) acts).map (fun s =>
      (s.arrived, s.sides.recv.tempMsgBuffer, s.sides.send.sendMsgBuffer,
        s.sides.send.postMsgBuffer, match s.intake with | .reading _ => true | _ => false)) =
      some ([0, 3, 65, 0, 3, 66, 0, 3, 67, 0, 3, 68, 0, 5, 1], [], [], [], true) := by
    decide +kernel
  obtain ⟨s, hs, hseen⟩ := Option.map_eq_some_iff.mp hrun
  simp only [Prod.mk.injEq] at hseen
  obtain ⟨harrived, htemp, hsend, hpost, hreading⟩ := hseen
  obtain ⟨r, hr⟩ : ∃ r, s.intake = .reading r := by
    cases hin : s.intake with
    | reading r => exact ⟨r, rfl⟩
    | parsed | ended =>
      rw [hin] at hreading
      cases hreading
  obtain ⟨hback, hall⟩ := echo_stream c 1 (.filled 0) s (Reach.of_exec_guarded acts hs)
  obtain ⟨rest, hrest, hpart⟩ := hall htemp hsend hpost
  exact ⟨c, s, rest, harrived, hback, hrest, hpart r hr⟩

end EchoLink

end AsioTcp.Wrapper
