import AsioTcp.Lib.WaitingLine
import AsioTcp.Wrapper.SendSide

/-!
# The receiving side of `st_socket`

What the unpacker has taken off the stream comes into `temp_msg_buffer`, from
where `dispatch_msg` offers it to `on_msg` and moves what is refused to
`recv_msg_buffer`; there `msg_handler` offers one message after the other to
`on_msg_handle` until it is accepted. With `force`
(`FORCE_TO_USE_MSG_RECV_BUFFER`) there is no `on_msg`. What the two virtual
functions return is left open, and so are the value of `posting` that is read
and what `on_unpack_error` does.
-/

namespace AsioTcp.Wrapper

open Transition

/-- Where a call of `dispatch_msg` stands: at message `k` of `temp_msg_buffer`,
before `splice_helper`, before its `do_dispatch_msg(true)`, or behind it. -/
inductive Call
  | scan (k : Nat) (dispatch : Bool)
  | splice
  | dispatch
  | finish
  deriving DecidableEq

/-- The message a call is at, and whether it has moved one. -/
def Call.scanning : Call → Option (Nat × Bool)
  | .scan k d => some (k, d)
  | _ => none

/-- How a call of `dispatch_msg` begins. -/
def Call.first (force : Bool) : Call := if force then .splice else .scan 0 false

/-- The members that receiving uses, what is under way (calls of `async_read`
and of `dispatch_msg`, with what `parse_msg` has returned if a `recv_handler` has
made the call; `recv_handler`s that have come to `on_unpack_error`; `msg_handler`s
in the queue, and those that have left `on_msg_handle`, with what it has
returned) and what has been unpacked, accepted by `on_msg`, gone through
`on_msg_handle` for good, and thrown away so far. -/
structure RecvSide where
  tempMsgBuffer : List Msg
  recvMsgBuffer : List Msg
  lastDispatchMsg : Msg
  dispatching : Bool
  suspendDispatchMsg : Bool
  started : Bool
  /-- `lowest_layer().is_open()` -/
  isOpen : Bool
  stopped : Bool
  timer0 : TimerInfo
  timer1 : TimerInfo
  timer3 : TimerInfo
  reads : Nat
  calls : List Call
  unpackOk : List Bool
  unpackErrors : Nat
  queued : Nat
  running : List Bool
  unpacked : List Msg
  taken : List Msg
  out : List Msg
  thrown : List Msg
  deriving DecidableEq

namespace RecvSide

/-- The part of `do_dispatch_msg` for a link that is down: `on_msg_handle` sees
every message, and none is kept. With `force` it is at `temp_msg_buffer` beside
`recv_handler` and `dispatch_msg`, which take no lock for it; here it is one step. -/
def dispatchAll (force : Bool) (s : RecvSide) : RecvSide :=
  if force then
    { s with out := s.out ++ (s.recvMsgBuffer ++ s.tempMsgBuffer)
             recvMsgBuffer := [], tempMsgBuffer := [] }
  else { s with out := s.out ++ s.recvMsgBuffer, recvMsgBuffer := [] }

/-- `do_dispatch_msg` -/
def doDispatchMsg (force posting : Bool) (s : RecvSide) : RecvSide :=
  if s.suspendDispatchMsg then
    if !s.dispatching && !s.recvMsgBuffer.isEmpty then
      { s with timer1 := s.timer1.setTimer (24 * 60 * 60 * 1000) 0 }
    else s
  else if posting then s
  else if s.stopped then { s with dispatching := false }.dispatchAll force
  else if s.dispatching then s
  else if !s.isOpen then s.dispatchAll force
  else
    match s.recvMsgBuffer with
    | [] => s
    | msg :: rest =>
      { s with
        dispatching := true, lastDispatchMsg := msg, recvMsgBuffer := rest
        queued := s.queued + 1 }

def setCall (s : RecvSide) (i : Nat) (c : Call) : RecvSide := { s with calls := s.calls.set i c }

/-- `on_msg` accepts message `k`. -/
def accept (s : RecvSide) (i k : Nat) (dispatch : Bool) (msg : Msg) : RecvSide :=
  { s with tempMsgBuffer := s.tempMsgBuffer.eraseIdx k, taken := s.taken ++ [msg] }.setCall i
    (.scan k dispatch)

/-- `on_msg` refuses message `k`. -/
def refuse (maxMsgNum : Nat) (s : RecvSide) (i k : Nat) (dispatch : Bool) (msg : Msg) : RecvSide :=
  if s.recvMsgBuffer.length < maxMsgNum then
    { s with
      tempMsgBuffer := s.tempMsgBuffer.eraseIdx k
      recvMsgBuffer := s.recvMsgBuffer ++ [msg] }.setCall i (.scan k true)
  else s.setCall i (.scan (k + 1) dispatch)

/-- `splice_helper(recv_msg_buffer, temp_msg_buffer)` -/
def moveTemp (maxMsgNum : Nat) (s : RecvSide) : RecvSide :=
  { s with
    recvMsgBuffer := (spliceHelper maxMsgNum s.recvMsgBuffer s.tempMsgBuffer).2.1
    tempMsgBuffer := (spliceHelper maxMsgNum s.recvMsgBuffer s.tempMsgBuffer).2.2 }

/-- The part of `dispatch_msg` that is there with `force` only -/
def spliceTemp (maxMsgNum : Nat) (posting : Bool) (s : RecvSide) : RecvSide :=
  if s.tempMsgBuffer.isEmpty then s
  else if (spliceHelper maxMsgNum s.recvMsgBuffer s.tempMsgBuffer).1 then
    (s.moveTemp maxMsgNum).doDispatchMsg true posting
  else s.moveTemp maxMsgNum

/-- `do_start` of a server socket -/
def doStart (s : RecvSide) : Bool × RecvSide :=
  if s.stopped then (false, s) else (true, { s with reads := s.reads + 1 })

/-- `start` -/
def startUp (s : RecvSide) : RecvSide :=
  if s.started then s else { s.doStart.2 with started := s.doStart.1 }

/-- The end of `dispatch_msg` -/
def finish (s : RecvSide) : RecvSide :=
  if s.tempMsgBuffer.isEmpty then s.doStart.2 else { s with timer0 := s.timer0.setTimer 50 0 }

/-- Call `i` of `dispatch_msg` returns, to `recv_handler` if this has made it. -/
def leave (s : RecvSide) (i : Nat) : RecvSide :=
  { s with
    calls := s.calls.eraseIdx i, unpackOk := s.unpackOk.eraseIdx i
    unpackErrors := s.unpackErrors + if s.unpackOk[i]? = some false then 1 else 0 }

/-- `if (!dispatching) last_dispatch_msg.clear();` -/
def clearLastDispatchMsg (s : RecvSide) : RecvSide :=
  if s.dispatching then s else { s with lastDispatchMsg := [] }

/-- The message is put back to be dispatched again. -/
def putBack (s : RecvSide) : RecvSide :=
  { s with
    recvMsgBuffer := s.lastDispatchMsg :: s.recvMsgBuffer, lastDispatchMsg := []
    timer3 := s.timer3.setTimer 50 0 }

/-- `msg_handler` after `on_msg_handle`; `re` is what this has returned. -/
def handlerEnds (force posting : Bool) (s : RecvSide) (re : Bool) : RecvSide :=
  let s := { s with dispatching := false }
  (if re then s.doDispatchMsg force posting else s.putBack).clearLastDispatchMsg

inductive Action
  | start
  /-- `recv_handler`, with what `parse_msg` finds and returns; the rest of it if
  this is false; and with an error -/
  | recvHandler (msgs : List Msg) (unpackOk : Bool)
  | onUnpackError
  | recvError
  | timer0Expires
  | timer1Expires
  | timer3Expires
  | onTimer0
  | onTimer1 (posting : Bool)
  | onTimer3 (posting : Bool)
  /-- the steps of call `i` of `dispatch_msg` -/
  | onMsg (i : Nat) (handled : Bool)
  | scanEnds (i : Nat) (posting : Bool)
  | splices (i : Nat) (posting : Bool)
  | callDispatches (i : Nat) (posting : Bool)
  | finishes (i : Nat)
  /-- `msg_handler`: `on_msg_handle` returns, and the rest -/
  | onMsgHandle (re : Bool)
  | handlerEnds (i : Nat) (posting : Bool)
  /-- `suspend_dispatch_msg`, and its `do_dispatch_msg(true)`, which is also
  that of timer 2 -/
  | suspendDispatchMsg (suspend : Bool)
  | dispatch (posting : Bool)
  /-- the parts of `clean_up` and `reset` -/
  | stopAllTimer
  | resetState
  | setOpen (isOpen : Bool)
  | setStopped (stopped : Bool)
  /-- `pop_first_pending_recv_msg` and `pop_all_pending_recv_msg` -/
  | popRecv (n : Nat)
  | clearBuffer

def step (force : Bool) (maxMsgNum : Nat) (s : RecvSide) : Action → Option RecvSide
  | .start => some s.startUp
  | .recvHandler msgs unpackOk =>
    if 0 < s.reads then
      some { s with
        reads := s.reads - 1, tempMsgBuffer := s.tempMsgBuffer ++ msgs
        unpacked := s.unpacked ++ msgs, calls := s.calls ++ [.first force]
        unpackOk := s.unpackOk ++ [unpackOk] }
    else none
  | .onUnpackError =>
    if 0 < s.unpackErrors then some { s with unpackErrors := s.unpackErrors - 1 } else none
  | .recvError => if 0 < s.reads then some { s with reads := s.reads - 1 } else none
  | .timer0Expires => s.timer0.expire.map fun timer0 => { s with timer0 }
  | .timer1Expires => s.timer1.expire.map fun timer1 => { s with timer1 }
  | .timer3Expires => s.timer3.expire.map fun timer3 => { s with timer3 }
  | .onTimer0 => s.timer0.handlerBegins.map fun timer0 =>
      { s with timer0, calls := s.calls ++ [.first force], unpackOk := s.unpackOk ++ [true] }
  | .onTimer1 posting => s.timer1.handlerBegins.map fun timer1 =>
      { s with timer1 }.doDispatchMsg force posting
  | .onTimer3 posting => s.timer3.handlerBegins.map fun timer3 =>
      { s with timer3 }.doDispatchMsg force posting
  | .onMsg i handled => (s.calls[i]?.bind Call.scanning).bind fun (k, dispatch) =>
      if s.suspendDispatchMsg then none
      else s.tempMsgBuffer[k]?.map fun msg =>
        if handled then s.accept i k dispatch msg else s.refuse maxMsgNum i k dispatch msg
  | .scanEnds i posting => (s.calls[i]?.bind Call.scanning).bind fun (k, dispatch) =>
      if s.suspendDispatchMsg || posting || s.tempMsgBuffer.length ≤ k then
        some (s.setCall i (if dispatch then .dispatch else .finish))
      else none
  | .splices i posting =>
    if s.calls[i]? = some .splice then some ((s.spliceTemp maxMsgNum posting).setCall i .finish)
    else none
  | .callDispatches i posting =>
    if s.calls[i]? = some .dispatch then some ((s.doDispatchMsg force posting).setCall i .finish)
    else none
  | .finishes i =>
    if s.calls[i]? = some .finish then some (s.leave i).finish else none
  | .onMsgHandle re =>
    if 0 < s.queued then
      some { s with
        queued := s.queued - 1, running := s.running ++ [re]
        out := if re then s.out ++ [s.lastDispatchMsg] else s.out }
    else none
  | .handlerEnds i posting => s.running[i]?.map fun re =>
      { s with running := s.running.eraseIdx i }.handlerEnds force posting re
  | .suspendDispatchMsg suspend =>
    some { s with suspendDispatchMsg := suspend, timer1 := s.timer1.stopTimer }
  | .dispatch posting => some (s.doDispatchMsg force posting)
  | .stopAllTimer =>
    some { s with
      timer0 := s.timer0.stopTimer, timer1 := s.timer1.stopTimer, timer3 := s.timer3.stopTimer }
  | .resetState =>
    some { s with dispatching := false, suspendDispatchMsg := false, started := false }
  | .setOpen isOpen => some { s with isOpen }
  | .setStopped stopped => some { s with stopped }
  | .popRecv n =>
    some { s with
      recvMsgBuffer := s.recvMsgBuffer.drop n, thrown := s.thrown ++ s.recvMsgBuffer.take n }
  | .clearBuffer =>
    some { s with
      recvMsgBuffer := [], tempMsgBuffer := []
      thrown := s.thrown ++ (s.recvMsgBuffer ++ s.tempMsgBuffer) }

/-- A socket that has been started: the first read is under way. -/
def start : RecvSide :=
  ⟨[], [], [], false, false, true, true, false, .fresh, .fresh, .fresh, 1, [], [], 0, 0, [], [], [],
    [], []⟩

/-! ## What the functions do -/

theorem doDispatchMsg_cases (force posting : Bool) (s : RecvSide) :
    (∃ timer1, s.doDispatchMsg force posting = { s with timer1 }) ∨
    (s.stopped = true ∧
      s.doDispatchMsg force posting = { s with dispatching := false }.dispatchAll force) ∨
    (s.dispatching = false ∧ s.doDispatchMsg force posting = s.dispatchAll force) ∨
    (s.dispatching = false ∧ ∃ msg rest, s.recvMsgBuffer = msg :: rest ∧
      s.doDispatchMsg force posting = { s with
        dispatching := true, lastDispatchMsg := msg, recvMsgBuffer := rest
        queued := s.queued + 1 }) := by
  unfold doDispatchMsg
  split
  · split
    · exact .inl ⟨_, rfl⟩
    · exact .inl ⟨_, rfl⟩
  · split
    · exact .inl ⟨_, rfl⟩
    · split
      · rename_i hstopped
        exact .inr (.inl ⟨hstopped, rfl⟩)
      · split
        · exact .inl ⟨_, rfl⟩
        · rename_i hidle
          have hidle := eq_false_of_ne_true hidle
          split
          · exact .inr (.inr (.inl ⟨hidle, rfl⟩))
          · split
            · exact .inl ⟨s.timer1, rfl⟩
            · rename_i msg rest hbuffer
              exact .inr (.inr (.inr ⟨hidle, msg, rest, hbuffer, rfl⟩))

theorem doStart_cases (s : RecvSide) :
    (s.stopped = true ∧ s.doStart = (false, s)) ∨
    (s.stopped = false ∧ s.doStart = (true, { s with reads := s.reads + 1 })) := by
  unfold doStart
  cases s.stopped with
  | true => exact .inl ⟨rfl, rfl⟩
  | false => exact .inr ⟨rfl, rfl⟩

/-- Nothing else is touched. -/
theorem finish_eq (s : RecvSide) : ∃ reads timer0, s.finish = { s with reads, timer0 } := by
  unfold finish
  split
  · obtain ⟨_, hs⟩ | ⟨_, hs⟩ := doStart_cases s
    · rw [hs]
      exact ⟨_, _, rfl⟩
    · rw [hs]
      exact ⟨_, _, rfl⟩
  · exact ⟨_, _, rfl⟩

theorem startUp_eq (s : RecvSide) : ∃ reads started, s.startUp = { s with reads, started } := by
  unfold startUp
  split
  · exact ⟨_, _, rfl⟩
  · obtain ⟨_, hs⟩ | ⟨_, hs⟩ := doStart_cases s
    · rw [hs]
      exact ⟨_, _, rfl⟩
    · rw [hs]
      exact ⟨_, _, rfl⟩

theorem handlerEnds_keeps {P : RecvSide → Prop} {force posting : Bool} {s : RecvSide} {re : Bool}
    (hdispatch : re = true → P ({ s with dispatching := false }.doDispatchMsg force posting))
    (hback : re = false → P { s with dispatching := false }.putBack)
    (hclear : ∀ t : RecvSide, t.dispatching = false → P t → P { t with lastDispatchMsg := [] }) :
    P (s.handlerEnds force posting re) := by
  have hlast : ∀ t : RecvSide, P t → P t.clearLastDispatchMsg := by
    intro t ht
    unfold clearLastDispatchMsg
    split
    · exact ht
    · rename_i hidle
      exact hclear t (eq_false_of_ne_true hidle) ht
  cases re with
  | true => exact hlast _ (hdispatch rfl)
  | false => exact hlast _ (hback rfl)

theorem spliceTemp_keeps {P : RecvSide → Prop} {posting : Bool} {maxMsgNum : Nat} {s : RecvSide}
    (h : P s) (hmove : P (s.moveTemp maxMsgNum))
    (hdispatch : P ((s.moveTemp maxMsgNum).doDispatchMsg true posting)) :
    P (s.spliceTemp maxMsgNum posting) := by
  unfold spliceTemp
  split
  · exact h
  · split
    · exact hdispatch
    · exact hmove

theorem scanning_eq_some {c : Call} {k : Nat} {dispatch : Bool}
    (h : c.scanning = some (k, dispatch)) : c = .scan k dispatch := by
  cases c with
  | scan k' dispatch' =>
    cases h
    rfl
  | splice | dispatch | finish => cases h

theorem step_recvHandler {force : Bool} {maxMsgNum : Nat} {s t : RecvSide} {msgs : List Msg}
    {unpackOk : Bool} (h : step force maxMsgNum s (.recvHandler msgs unpackOk) = some t) :
    0 < s.reads ∧ t = { s with
      reads := s.reads - 1, tempMsgBuffer := s.tempMsgBuffer ++ msgs
      unpacked := s.unpacked ++ msgs, calls := s.calls ++ [.first force]
      unpackOk := s.unpackOk ++ [unpackOk] } := by
  simp only [step] at h
  split at h
  · exact ⟨by assumption, (Option.some.inj h).symm⟩
  · cases h

theorem step_onUnpackError {force : Bool} {maxMsgNum : Nat} {s t : RecvSide}
    (h : step force maxMsgNum s .onUnpackError = some t) :
    0 < s.unpackErrors ∧ t = { s with unpackErrors := s.unpackErrors - 1 } := by
  simp only [step] at h
  split at h
  · exact ⟨by assumption, (Option.some.inj h).symm⟩
  · cases h

theorem step_recvError {force : Bool} {maxMsgNum : Nat} {s t : RecvSide}
    (h : step force maxMsgNum s .recvError = some t) :
    0 < s.reads ∧ t = { s with reads := s.reads - 1 } := by
  simp only [step] at h
  split at h
  · exact ⟨by assumption, (Option.some.inj h).symm⟩
  · cases h

theorem step_onMsg {force : Bool} {maxMsgNum : Nat} {s t : RecvSide} {i : Nat} {handled : Bool}
    (h : step force maxMsgNum s (.onMsg i handled) = some t) :
    ∃ k dispatch msg, s.calls[i]? = some (.scan k dispatch) ∧ s.tempMsgBuffer[k]? = some msg ∧
      s.suspendDispatchMsg = false ∧
      t = if handled then s.accept i k dispatch msg else s.refuse maxMsgNum i k dispatch msg := by
  obtain ⟨⟨k, dispatch⟩, hcall, h⟩ := Option.bind_eq_some_iff.mp h
  obtain ⟨c, hc, hscan⟩ := Option.bind_eq_some_iff.mp hcall
  rw [scanning_eq_some hscan] at hc
  dsimp only at h
  split at h
  · cases h
  · rename_i hgoing
    obtain ⟨msg, hmsg, rfl⟩ := Option.map_eq_some_iff.mp h
    exact ⟨k, dispatch, msg, hc, hmsg, eq_false_of_ne_true hgoing, rfl⟩

theorem step_scanEnds {force : Bool} {maxMsgNum : Nat} {s t : RecvSide} {i : Nat} {posting : Bool}
    (h : step force maxMsgNum s (.scanEnds i posting) = some t) :
    ∃ k dispatch, s.calls[i]? = some (.scan k dispatch) ∧
      t = s.setCall i (if dispatch then .dispatch else .finish) := by
  obtain ⟨⟨k, dispatch⟩, hcall, h⟩ := Option.bind_eq_some_iff.mp h
  obtain ⟨c, hc, hscan⟩ := Option.bind_eq_some_iff.mp hcall
  rw [scanning_eq_some hscan] at hc
  dsimp only at h
  split at h
  · exact ⟨k, dispatch, hc, (Option.some.inj h).symm⟩
  · cases h

theorem step_splices {force : Bool} {maxMsgNum : Nat} {s t : RecvSide} {i : Nat} {posting : Bool}
    (h : step force maxMsgNum s (.splices i posting) = some t) :
    s.calls[i]? = some .splice ∧ t = (s.spliceTemp maxMsgNum posting).setCall i .finish := by
  simp only [step] at h
  split at h
  · exact ⟨by assumption, (Option.some.inj h).symm⟩
  · cases h

theorem step_callDispatches {force : Bool} {maxMsgNum : Nat} {s t : RecvSide} {i : Nat}
    {posting : Bool} (h : step force maxMsgNum s (.callDispatches i posting) = some t) :
    s.calls[i]? = some .dispatch ∧ t = (s.doDispatchMsg force posting).setCall i .finish := by
  simp only [step] at h
  split at h
  · exact ⟨by assumption, (Option.some.inj h).symm⟩
  · cases h

theorem step_finishes {force : Bool} {maxMsgNum : Nat} {s t : RecvSide} {i : Nat}
    (h : step force maxMsgNum s (.finishes i) = some t) :
    s.calls[i]? = some .finish ∧ t = (s.leave i).finish := by
  simp only [step] at h
  split at h
  · exact ⟨by assumption, (Option.some.inj h).symm⟩
  · cases h

theorem step_onMsgHandle {force : Bool} {maxMsgNum : Nat} {s t : RecvSide} {re : Bool}
    (h : step force maxMsgNum s (.onMsgHandle re) = some t) :
    0 < s.queued ∧ t = { s with
      queued := s.queued - 1, running := s.running ++ [re]
      out := if re then s.out ++ [s.lastDispatchMsg] else s.out } := by
  simp only [step] at h
  split at h
  · exact ⟨by assumption, (Option.some.inj h).symm⟩
  · cases h

/-! ## What has come in -/

/-- The messages that an action brings. -/
def Action.brings : Action → List Msg
  | .recvHandler msgs _ => msgs
  | _ => []

theorem doDispatchMsg_front (force posting : Bool) (s : RecvSide) :
    (s.doDispatchMsg force posting).unpacked = s.unpacked ∧
      (s.doDispatchMsg force posting).started = s.started := by
  have hall : ∀ s : RecvSide, (s.dispatchAll force).unpacked = s.unpacked ∧
      (s.dispatchAll force).started = s.started := by
    intro s
    unfold dispatchAll
    split <;> exact ⟨rfl, rfl⟩
  obtain ⟨_, hs⟩ | ⟨_, hs⟩ | ⟨_, hs⟩ | ⟨_, _, _, _, hs⟩ := doDispatchMsg_cases force posting s
  · rw [hs]
    exact ⟨rfl, rfl⟩
  · rw [hs]
    exact hall { s with dispatching := false }
  · rw [hs]
    exact hall s
  · rw [hs]
    exact ⟨rfl, rfl⟩

/-- Only `recv_handler` brings messages, and only `start` and `reset_state` touch
`started_`. -/
theorem step_front {force : Bool} {maxMsgNum : Nat} {s t : RecvSide} {a : Action}
    (h : step force maxMsgNum s a = some t) : t.unpacked = s.unpacked ++ a.brings ∧
      (a ≠ .start → a ≠ .resetState → t.started = s.started) := by
  have hsame : a.brings = [] → t.unpacked = s.unpacked ∧ t.started = s.started →
      t.unpacked = s.unpacked ++ a.brings ∧
        (a ≠ .start → a ≠ .resetState → t.started = s.started) := by
    intro hnone ht
    rw [hnone, List.append_nil]
    exact ⟨ht.1, fun _ _ => ht.2⟩
  cases a with
  | start =>
    cases h
    obtain ⟨_, _, hstart⟩ := startUp_eq s
    rw [hstart]
    exact ⟨(List.append_nil _).symm, fun hne => absurd rfl hne⟩
  | resetState =>
    cases h
    exact ⟨(List.append_nil _).symm, fun _ hne => absurd rfl hne⟩
  | recvHandler msgs unpackOk =>
    obtain ⟨_, rfl⟩ := step_recvHandler h
    exact ⟨rfl, fun _ _ => rfl⟩
  | onUnpackError =>
    obtain ⟨_, rfl⟩ := step_onUnpackError h
    exact hsame rfl ⟨rfl, rfl⟩
  | recvError =>
    obtain ⟨_, rfl⟩ := step_recvError h
    exact hsame rfl ⟨rfl, rfl⟩
  | timer0Expires | timer1Expires | timer3Expires | onTimer0 =>
    obtain ⟨_, _, rfl⟩ := Option.map_eq_some_iff.mp h
    exact hsame rfl ⟨rfl, rfl⟩
  | onTimer1 posting =>
    obtain ⟨timer1, _, rfl⟩ := Option.map_eq_some_iff.mp h
    exact hsame rfl (doDispatchMsg_front force posting { s with timer1 })
  | onTimer3 posting =>
    obtain ⟨timer3, _, rfl⟩ := Option.map_eq_some_iff.mp h
    exact hsame rfl (doDispatchMsg_front force posting { s with timer3 })
  | onMsg i handled =>
    obtain ⟨_, _, _, _, _, _, rfl⟩ := step_onMsg h
    refine hsame rfl ?_
    unfold accept refuse
    split
    · exact ⟨rfl, rfl⟩
    · split <;> exact ⟨rfl, rfl⟩
  | scanEnds i posting =>
    obtain ⟨_, _, _, rfl⟩ := step_scanEnds h
    exact hsame rfl ⟨rfl, rfl⟩
  | splices i posting =>
    obtain ⟨_, rfl⟩ := step_splices h
    exact hsame rfl (spliceTemp_keeps
      (P := fun t => t.unpacked = s.unpacked ∧ t.started = s.started) ⟨rfl, rfl⟩ ⟨rfl, rfl⟩
      (doDispatchMsg_front true posting (s.moveTemp maxMsgNum)))
  | callDispatches i posting =>
    obtain ⟨_, rfl⟩ := step_callDispatches h
    exact hsame rfl (doDispatchMsg_front force posting s)
  | finishes i =>
    obtain ⟨_, rfl⟩ := step_finishes h
    obtain ⟨_, _, hfinish⟩ := finish_eq (s.leave i)
    rw [hfinish]
    exact ⟨(List.append_nil _).symm, fun _ _ => rfl⟩
  | onMsgHandle re =>
    obtain ⟨_, rfl⟩ := step_onMsgHandle h
    exact hsame rfl ⟨rfl, rfl⟩
  | handlerEnds i posting =>
    obtain ⟨re, _, rfl⟩ := Option.map_eq_some_iff.mp h
    exact hsame rfl (handlerEnds_keeps
      (P := fun t => t.unpacked = s.unpacked ∧ t.started = s.started)
      (fun _ => doDispatchMsg_front force posting { s with
        running := s.running.eraseIdx i, dispatching := false })
      (fun _ => ⟨rfl, rfl⟩) (fun _ _ ht => ht))
  | dispatch posting =>
    cases h
    exact hsame rfl (doDispatchMsg_front force posting s)
  | suspendDispatchMsg | stopAllTimer | setOpen | setStopped | popRecv | clearBuffer =>
    cases h
    exact hsame rfl ⟨rfl, rfl⟩

end RecvSide

end AsioTcp.Wrapper
