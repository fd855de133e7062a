import AsioTcp.Wrapper.SendSide

/-!
# `st_connector_base`

Connecting, reading, dispatching, waiting to dispatch and waiting to connect
again take turns (`connector_turns`). A link that is closed while nothing but a
read is under way, and to which nothing more comes, stays closed if it is to,
and is fit for use if it comes back (`connector_settles`). But a message that
comes while it is being closed gracefully brings it back in any case, and unfit
(`graceful_reconnects`).
-/

namespace AsioTcp.Wrapper

open Transition

/-- What `async_connect` ends in. -/
inductive ConnectResult
  | success
  | operationAborted
  | connectionRefused
  | timedOut
  | other
  deriving DecidableEq

/-- The members that connecting and closing use, and what is under way: calls
of `async_connect`, handlers of it that are in `on_connect`, calls of
`async_read` and `dispatch_msg`, and of `graceful_close` that wait for its end. -/
structure Connector where
  connected : Bool
  reconnecting : Bool
  started : Bool
  closeState : CloseState
  stopped : Bool
  timer0 : TimerInfo
  timer10 : TimerInfo
  timer11 : TimerInfo
  connects : Nat
  onConnects : Nat
  reads : Nat
  dispatches : Nat
  waits : Nat
  deriving DecidableEq

namespace Connector

/-- `is_closing` -/
def isClosing (s : Connector) : Bool := s.closeState ≠ .normal

/-- `is_send_allowed`, if sending is not suspended. -/
def isSendAllowed (s : Connector) : Bool := s.connected && !s.isClosing

/-- `do_start` -/
def doStart (s : Connector) : Bool × Connector :=
  if s.stopped then (false, s)
  else if !s.connected then (true, { s with connects := s.connects + 1 })
  else (true, { s with reads := s.reads + 1 })

/-- `start` -/
def startUp (s : Connector) : Connector :=
  if s.started then s else { s.doStart.2 with started := s.doStart.1 }

def stopAllTimer (s : Connector) : Connector :=
  { s with
    timer0 := s.timer0.stopTimer, timer10 := s.timer10.stopTimer, timer11 := s.timer11.stopTimer }

/-- `clean_up` -/
def cleanUp (s : Connector) : Connector :=
  { s with closeState := .force, started := false }.stopAllTimer

/-- `force_close` -/
def forceClose (s : Connector) (reconnect : Bool) : Connector :=
  if s.closeState ≠ .force then { s with reconnecting := reconnect, connected := false }.cleanUp
  else s

/-- `graceful_close`; `ec` is what `shutdown` returns. -/
def gracefulClose (s : Connector) (reconnect sync ec : Bool) : Connector :=
  if s.isClosing then s
  else if !s.connected then s.forceClose reconnect
  else
    let s := { s with reconnecting := reconnect, connected := false, closeState := .graceful }
    if ec then s.cleanUp
    else if sync then { s with waits := s.waits + 1 }
    else { s with timer11 := s.timer11.setTimer 10 (5 * 100) }

/-- `on_recv_error`; `delay` is what `prepare_re_connect` returns. -/
def onRecvError (s : Connector) (delay : Int) : Connector :=
  let s := s.forceClose (if s.isClosing then s.reconnecting else 0 ≤ delay)
  let s := { s with closeState := .normal }
  if s.reconnecting then s.startUp else s

/-- `connect_handler`, with success up to `on_connect` -/
def connectHandler (s : Connector) (result : ConnectResult) (delay : Int) : Connector :=
  if result = .success then
    { s with connected := true, reconnecting := true, onConnects := s.onConnects + 1 }
  else if (result ≠ .operationAborted ∨ s.reconnecting) ∧ !s.stopped then
    if 0 ≤ delay then { s with timer10 := s.timer10.setTimer delay.toNat 0 } else s
  else s

/-- The end of `dispatch_msg`; `empty` tells if `temp_msg_buffer` is. -/
def dispatchEnds (s : Connector) (empty : Bool) : Connector :=
  if empty then s.doStart.2 else { s with timer0 := s.timer0.setTimer 50 0 }

/-- `on_timer(11)`, and what it returns -/
def onTimer11 (s : Connector) : Bool × Connector :=
  if s.closeState = .graceful then
    let loopNum := s.timer11.userData - 1
    if 0 < loopNum then
      (true, { s with timer11 := { s.timer11 with
        status := .ok, milliseconds := 10, userData := loopNum } })
    else (false, s.forceClose s.reconnecting)
  else (false, s)

/-- `reset` -/
def reset (s : Connector) : Connector :=
  { s with connected := false, reconnecting := true, started := false, closeState := .normal }

inductive Action
  | start
  | reset
  | forceClose (reconnect : Bool)
  | gracefulClose (reconnect sync ec : Bool)
  /-- a `graceful_close` that waits sees the end, or has waited long enough -/
  | waitEnds
  | waitTimesOut
  | connectHandler (result : ConnectResult) (delay : Int)
  /-- the rest of `connect_handler` after `on_connect` -/
  | connectEnds
  /-- `recv_handler`, with data and with an error -/
  | recvHandler
  | recvError (delay : Int)
  | dispatchEnds (empty : Bool)
  | timer0Expires
  | onTimer0
  | timer10Expires
  | onTimer10
  | timer11Expires
  | onTimer11
  | timer11Restarts
  /-- `io_service::stop` and `reset` -/
  | setStopped (stopped : Bool)

def step (s : Connector) : Action → Option Connector
  | .start => some s.startUp
  | .reset => some s.reset
  | .forceClose reconnect => some (s.forceClose reconnect)
  | .gracefulClose reconnect sync ec => some (s.gracefulClose reconnect sync ec)
  | .waitEnds => if 0 < s.waits ∧ !s.isClosing then some { s with waits := s.waits - 1 } else none
  | .waitTimesOut => if 0 < s.waits then some { s with waits := s.waits - 1 }.cleanUp else none
  | .connectHandler result delay =>
    if 0 < s.connects then
      some ({ s with connects := s.connects - 1 }.connectHandler result delay)
    else none
  | .connectEnds =>
    if 0 < s.onConnects then some { s with onConnects := s.onConnects - 1 }.doStart.2 else none
  | .recvHandler =>
    if 0 < s.reads then some { s with reads := s.reads - 1, dispatches := s.dispatches + 1 }
    else none
  | .recvError delay =>
    if 0 < s.reads then some ({ s with reads := s.reads - 1 }.onRecvError delay) else none
  | .dispatchEnds empty =>
    if 0 < s.dispatches then
      some ({ s with dispatches := s.dispatches - 1 }.dispatchEnds empty)
    else none
  | .timer0Expires => s.timer0.expire.map fun timer0 => { s with timer0 }
  | .onTimer0 => s.timer0.handlerBegins.map fun timer0 =>
      { s with timer0, dispatches := s.dispatches + 1 }
  | .timer10Expires => s.timer10.expire.map fun timer10 => { s with timer10 }
  | .onTimer10 => s.timer10.handlerBegins.map fun timer10 => { s with timer10 }.doStart.2
  | .timer11Expires => s.timer11.expire.map fun timer11 => { s with timer11 }
  | .onTimer11 => s.timer11.handlerBegins.bind fun timer11 =>
      let (again, s) := { s with timer11 }.onTimer11
      (s.timer11.handlerTests again).map fun timer11 => { s with timer11 }
  | .timer11Restarts => s.timer11.handlerRestarts.map fun timer11 => { s with timer11 }
  | .setStopped stopped => some { s with stopped }

/-- A new connector. -/
def start : Connector :=
  ⟨false, true, false, .normal, false, .fresh, .fresh, .fresh, 0, 0, 0, 0, 0⟩

/-! ## What the functions do -/

theorem of_ite_some {p : Prop} [Decidable p] {s t : Connector}
    (h : (if p then some s else none) = some t) : p ∧ t = s := by
  obtain ⟨hp, hs⟩ := Option.ite_none_right_eq_some.mp h
  exact ⟨hp, (Option.some.inj hs).symm⟩

/-- What is under way -/
def tokens (s : Connector) : Nat :=
  s.connects + s.onConnects + s.reads + s.dispatches + (s.timer0.pending + s.timer0.expired) +
    (s.timer10.pending + s.timer10.expired)

theorem doStart_cases (s : Connector) :
    (s.stopped = true ∧ s.doStart = (false, s)) ∨
    (s.stopped = false ∧ s.connected = false ∧
      s.doStart = (true, { s with connects := s.connects + 1 })) ∨
    (s.stopped = false ∧ s.connected = true ∧
      s.doStart = (true, { s with reads := s.reads + 1 })) := by
  unfold doStart
  cases s.stopped <;> cases s.connected <;> simp

theorem doStart_tokens (s : Connector) : s.doStart.2.tokens ≤ s.tokens + 1 := by
  obtain ⟨_, hs⟩ | ⟨_, _, hs⟩ | ⟨_, _, hs⟩ := doStart_cases s
  · rw [hs]
    exact Nat.le_succ _
  · rw [hs]
    unfold tokens
    simp only
    omega
  · rw [hs]
    unfold tokens
    simp only
    omega

theorem startUp_tokens (s : Connector) : s.startUp.tokens ≤ s.tokens + 1 := by
  unfold startUp
  split
  · exact Nat.le_succ _
  · exact doStart_tokens s

theorem cleanUp_tokens (s : Connector) : s.cleanUp.tokens ≤ s.tokens := by
  unfold tokens cleanUp stopAllTimer TimerInfo.stopTimer
  simp only
  omega

theorem forceClose_tokens (s : Connector) (reconnect : Bool) :
    (s.forceClose reconnect).tokens ≤ s.tokens := by
  unfold forceClose
  split
  · exact cleanUp_tokens { s with reconnecting := reconnect, connected := false }
  · exact Nat.le_refl _

theorem gracefulClose_tokens (s : Connector) (reconnect sync ec : Bool) :
    (s.gracefulClose reconnect sync ec).tokens ≤ s.tokens := by
  unfold gracefulClose
  split
  · exact Nat.le_refl _
  · split
    · exact forceClose_tokens s reconnect
    · dsimp only
      split
      · exact cleanUp_tokens { s with
          reconnecting := reconnect, connected := false, closeState := .graceful }
      · split
        · exact Nat.le_refl _
        · exact Nat.le_refl _

theorem onRecvError_tokens (s : Connector) (delay : Int) :
    (s.onRecvError delay).tokens ≤ s.tokens + 1 := by
  have hopen : ∀ u : Connector, u.tokens ≤ s.tokens →
      (if u.reconnecting then { u with closeState := .normal }.startUp
        else { u with closeState := .normal }).tokens ≤ s.tokens + 1 := by
    intro u hu
    split
    · exact Nat.le_trans (startUp_tokens _) (Nat.succ_le_succ hu)
    · exact Nat.le_succ_of_le hu
  exact hopen _ (forceClose_tokens s _)

theorem onTimer11_tokens (s : Connector) : s.onTimer11.2.tokens ≤ s.tokens := by
  unfold onTimer11
  split
  · dsimp only
    split
    · exact Nat.le_refl _
    · exact forceClose_tokens s s.reconnecting
  · exact Nat.le_refl _

/-! ## Taking turns -/

/-- `start` and `reset` are not called while something is under way. -/
def Apart (s : Connector) : Action → Prop
  | .start => s.tokens = 0
  | .reset => s.tokens = 0
  | _ => True

instance (s : Connector) (a : Action) : Decidable (Apart s a) := by
  unfold Apart
  split <;> infer_instance

theorem connectHandler_tokens (s : Connector) (result : ConnectResult) (delay : Int)
    (h : s.tokens = 0) : (s.connectHandler result delay).tokens ≤ 1 := by
  unfold connectHandler
  split
  · unfold tokens at *
    simp only
    omega
  · split
    · split
      · unfold tokens TimerInfo.setTimer TimerInfo.startTimer at *
        simp only
        omega
      · exact Nat.le_trans (Nat.le_of_eq h) (Nat.zero_le 1)
    · exact Nat.le_trans (Nat.le_of_eq h) (Nat.zero_le 1)

theorem dispatchEnds_tokens (s : Connector) (empty : Bool) (h : s.tokens = 0) :
    (s.dispatchEnds empty).tokens ≤ 1 := by
  unfold dispatchEnds
  split
  · exact Nat.le_trans (doStart_tokens s) (Nat.succ_le_succ (Nat.le_of_eq h))
  · unfold tokens TimerInfo.setTimer TimerInfo.startTimer at *
    simp only
    omega

theorem step_tokens {s t : Connector} {a : Action} (hok : Apart s a) (hs : step s a = some t)
    (h : s.tokens ≤ 1) : t.tokens ≤ 1 := by
  cases a with
  | start =>
    cases hs
    exact Nat.le_trans (startUp_tokens s) (Nat.succ_le_succ (Nat.le_of_eq hok))
  | reset =>
    cases hs
    exact h
  | forceClose reconnect =>
    cases hs
    exact Nat.le_trans (forceClose_tokens s reconnect) h
  | gracefulClose reconnect sync ec =>
    cases hs
    exact Nat.le_trans (gracefulClose_tokens s reconnect sync ec) h
  | waitEnds =>
    obtain ⟨_, rfl⟩ := of_ite_some hs
    exact h
  | waitTimesOut =>
    obtain ⟨_, rfl⟩ := of_ite_some hs
    exact Nat.le_trans (cleanUp_tokens { s with waits := s.waits - 1 }) h
  | connectHandler result delay =>
    obtain ⟨hpos, rfl⟩ := of_ite_some hs
    refine connectHandler_tokens _ result delay ?_
    unfold tokens at *
    simp only
    omega
  | connectEnds =>
    obtain ⟨hpos, rfl⟩ := of_ite_some hs
    refine Nat.le_trans (doStart_tokens _) ?_
    unfold tokens at *
    simp only
    omega
  | recvHandler =>
    obtain ⟨hpos, rfl⟩ := of_ite_some hs
    unfold tokens at *
    simp only
    omega
  | recvError delay =>
    obtain ⟨hpos, rfl⟩ := of_ite_some hs
    refine Nat.le_trans (onRecvError_tokens _ delay) ?_
    unfold tokens at *
    simp only
    omega
  | dispatchEnds empty =>
    obtain ⟨hpos, rfl⟩ := of_ite_some hs
    refine dispatchEnds_tokens _ empty ?_
    unfold tokens at *
    simp only
    omega
  | timer0Expires =>
    obtain ⟨timer0, hexpire, rfl⟩ := Option.map_eq_some_iff.mp hs
    obtain ⟨_, rfl⟩ := TimerInfo.expire_eq_some hexpire
    unfold tokens at *
    simp only
    omega
  | onTimer0 =>
    obtain ⟨timer0, hbegins, rfl⟩ := Option.map_eq_some_iff.mp hs
    obtain ⟨hexpired, rfl⟩ := TimerInfo.handlerBegins_eq_some hbegins
    unfold tokens at *
    simp only
    omega
  | timer10Expires =>
    obtain ⟨timer10, hexpire, rfl⟩ := Option.map_eq_some_iff.mp hs
    obtain ⟨_, rfl⟩ := TimerInfo.expire_eq_some hexpire
    unfold tokens at *
    simp only
    omega
  | onTimer10 =>
    obtain ⟨timer10, hbegins, rfl⟩ := Option.map_eq_some_iff.mp hs
    obtain ⟨hexpired, rfl⟩ := TimerInfo.handlerBegins_eq_some hbegins
    refine Nat.le_trans (doStart_tokens _) ?_
    unfold tokens at *
    simp only
    omega
  | timer11Expires | timer11Restarts =>
    obtain ⟨timer11, _, rfl⟩ := Option.map_eq_some_iff.mp hs
    exact h
  | onTimer11 =>
    obtain ⟨timer11, _, hs⟩ := Option.bind_eq_some_iff.mp hs
    obtain ⟨timer11', _, rfl⟩ := Option.map_eq_some_iff.mp hs
    exact Nat.le_trans (onTimer11_tokens { s with timer11 }) h
  | setStopped =>
    cases hs
    exact h

theorem reach_tokens {s : Connector} (h : Reach step Apart start s) : s.tokens ≤ 1 :=
  Reach.invariant (P := fun s => s.tokens ≤ 1) (by decide)
    (fun _ _ _ _ ih hok hs => step_tokens hok hs ih) h

/-- **Taking turns**: connecting, being in `on_connect`, reading, dispatching, and
waiting for timer 0 or timer 10 exclude each other and themselves, whatever is
closed, reset or stopped meanwhile. -/
theorem connector_turns (s : Connector) (h : Reach step Apart start s) :
    s.connects + s.onConnects + s.reads + s.dispatches + (s.timer0.pending + s.timer0.expired) +
      (s.timer10.pending + s.timer10.expired) ≤ 1 := reach_tokens h

/-- Closed while connecting, and connected nevertheless -/
theorem connector_turns_again : ∃ s : Connector, s.reads = 1 ∧ s.isSendAllowed = false ∧
    s.connects + s.onConnects + s.reads + s.dispatches +
      (s.timer0.pending + s.timer0.expired) + (s.timer10.pending + s.timer10.expired) ≤ 1 := by
  let acts : List Action := [.start, .forceClose true, .connectHandler .operationAborted 500,
    .timer10Expires, .onTimer10, .connectHandler .success 500, .connectEnds]
  have hrun : (exec (guarded step Apart) start acts).map
      (fun s => (s.reads, s.isSendAllowed)) = some (1, false) := by
    decide +kernel
  obtain ⟨s, hs, hseen⟩ := Option.map_eq_some_iff.mp hrun
  simp only [Prod.mk.injEq] at hseen
  exact ⟨s, hseen.1, hseen.2, connector_turns s (Reach.of_exec_guarded acts hs)⟩

/-! ## Closing -/

/-- A link is closed only while nothing but a read is under way, no message
comes while it is being closed, it is started when it is new or has been reset,
and a `graceful_close` that waits gives up only while it is still being closed. -/
def Calm (s : Connector) : Action → Prop
  | .start => s.tokens = 0 ∧ s.isClosing = false ∧ s.reconnecting = true
  | .reset => s.tokens = 0
  | .forceClose _ => s.tokens = s.reads
  | .gracefulClose _ _ _ => s.tokens = s.reads
  | .waitTimesOut => s.isClosing = true
  | .recvHandler => s.isClosing = false
  | _ => True

instance (s : Connector) (a : Action) : Decidable (Calm s a) := by
  unfold Calm
  split <;> infer_instance

/-- A link that is being closed is not connected, and only its last read is out;
nothing is out if it has been closed for good. -/
structure Settled (s : Connector) : Prop where
  turns : s.tokens ≤ 1
  closing : s.isClosing = true → s.connected = false ∧ s.tokens = s.reads
  closed : s.isClosing = false → s.reconnecting = false → s.connected = false ∧ s.tokens = 0

namespace Settled

variable {s t : Connector}

theorem going (hturns : s.tokens ≤ 1) (hopen : s.isClosing = false)
    (hreconnecting : s.reconnecting = true) : s.Settled := by
  refine ⟨hturns, fun hclosing => ?_, fun _ hnot => ?_⟩
  · cases hopen.symm.trans hclosing
  · cases hreconnecting.symm.trans hnot

/-- Where something else than a read is under way the link is not closed. -/
theorem busy (h : s.Settled) (hlt : s.reads < s.tokens) :
    s.isClosing = false ∧ s.reconnecting = true := by
  have hopen : s.isClosing = false := by
    refine eq_false_of_ne_true fun hclosing => ?_
    have heq := (h.closing hclosing).2
    omega
  refine ⟨hopen, ?_⟩
  cases hreconnecting : s.reconnecting with
  | true => rfl
  | false =>
    have hzero := (h.closed hopen hreconnecting).2
    omega

theorem same (h : s.Settled) (htokens : t.tokens = s.tokens) (hreads : t.reads = s.reads)
    (hclose : t.closeState = s.closeState) (hconnected : t.connected = s.connected)
    (hreconnecting : t.reconnecting = s.reconnecting) : t.Settled := by
  have hclosing : t.isClosing = s.isClosing := by
    unfold isClosing
    rw [hclose]
  refine ⟨?_, ?_, ?_⟩
  · rw [htokens]
    exact h.turns
  · rw [hclosing, hconnected, htokens, hreads]
    exact h.closing
  · rw [hclosing, hconnected, htokens, hreconnecting]
    exact h.closed

theorem cleanUp (hturns : s.tokens ≤ 1) (hconnected : s.connected = false)
    (hreads : s.tokens = s.reads) : s.cleanUp.Settled := by
  have hless : s.cleanUp.reads ≤ s.cleanUp.tokens := by
    unfold tokens
    omega
  have htokens := cleanUp_tokens s
  refine ⟨Nat.le_trans htokens hturns, fun _ => ⟨hconnected, ?_⟩, fun hopen => ?_⟩
  · exact Nat.le_antisymm (Nat.le_trans htokens (Nat.le_of_eq hreads)) hless
  · cases hopen

theorem forceClose (h : s.Settled) (hreads : s.tokens = s.reads) (reconnect : Bool) :
    (s.forceClose reconnect).Settled := by
  unfold Connector.forceClose
  split
  · exact cleanUp (s := { s with reconnecting := reconnect, connected := false }) h.turns rfl
      hreads
  · exact h

theorem gracefulClose (h : s.Settled) (hreads : s.tokens = s.reads) (reconnect sync ec : Bool) :
    (s.gracefulClose reconnect sync ec).Settled := by
  unfold Connector.gracefulClose
  split
  · exact h
  · split
    · exact h.forceClose hreads reconnect
    · dsimp only
      split
      · exact cleanUp (s := { s with
          reconnecting := reconnect, connected := false, closeState := .graceful }) h.turns rfl
          hreads
      · split
        · exact ⟨h.turns, fun _ => ⟨rfl, hreads⟩, fun hopen => by cases hopen⟩
        · exact ⟨h.turns, fun _ => ⟨rfl, hreads⟩, fun hopen => by cases hopen⟩

theorem doStart (hnone : s.tokens = 0) (hopen : s.isClosing = false)
    (hreconnecting : s.reconnecting = true) : s.doStart.2.Settled := by
  have hturns := doStart_tokens s
  rw [hnone] at hturns
  obtain ⟨_, hs⟩ | ⟨_, _, hs⟩ | ⟨_, _, hs⟩ := doStart_cases s
  · rw [hs] at hturns ⊢
    exact going hturns hopen hreconnecting
  · rw [hs] at hturns ⊢
    exact going hturns hopen hreconnecting
  · rw [hs] at hturns ⊢
    exact going hturns hopen hreconnecting

theorem startUp (hnone : s.tokens = 0) (hopen : s.isClosing = false)
    (hreconnecting : s.reconnecting = true) : s.startUp.Settled := by
  unfold Connector.startUp
  split
  · exact going (by omega) hopen hreconnecting
  · exact (doStart hnone hopen hreconnecting).same rfl rfl rfl rfl rfl

theorem onRecvError (hnone : s.tokens = 0) (hclosing : s.isClosing = true → s.connected = false)
    (delay : Int) : (s.onRecvError delay).Settled := by
  have hopen : ∀ u : Connector, u.tokens = 0 → u.connected = false →
      (if u.reconnecting then { u with closeState := .normal }.startUp
        else { u with closeState := .normal }).Settled := by
    intro u hu hconnected
    split
    · rename_i hreconnecting
      exact startUp (s := { u with closeState := .normal }) hu rfl hreconnecting
    · refine ⟨Nat.le_trans (Nat.le_of_eq hu) (Nat.zero_le 1), fun hfalse => ?_,
        fun _ _ => ⟨hconnected, hu⟩⟩
      cases hfalse
  refine hopen (s.forceClose (if s.isClosing then s.reconnecting else 0 ≤ delay)) ?_ ?_
  · have hless := forceClose_tokens s (if s.isClosing then s.reconnecting else 0 ≤ delay)
    omega
  · unfold Connector.forceClose
    split
    · rfl
    · rename_i hforce
      refine hclosing (decide_eq_true fun hnormal => hforce ?_)
      rw [hnormal]
      exact CloseState.noConfusion

theorem connectHandler (hnone : s.tokens = 0) (hopen : s.isClosing = false)
    (hreconnecting : s.reconnecting = true) (result : ConnectResult) (delay : Int) :
    (s.connectHandler result delay).Settled := by
  have hturns := connectHandler_tokens s result delay hnone
  unfold Connector.connectHandler at *
  split
  · rename_i hsuccess
    rw [if_pos hsuccess] at hturns
    exact going hturns hopen rfl
  · rename_i hfails
    rw [if_neg hfails] at hturns
    split
    · rename_i hagain
      rw [if_pos hagain] at hturns
      split
      · rename_i hdelay
        rw [if_pos hdelay] at hturns
        exact going hturns hopen hreconnecting
      · exact going (by omega) hopen hreconnecting
    · exact going (by omega) hopen hreconnecting

theorem dispatchEnds (hnone : s.tokens = 0) (hopen : s.isClosing = false)
    (hreconnecting : s.reconnecting = true) (empty : Bool) : (s.dispatchEnds empty).Settled := by
  have hturns := dispatchEnds_tokens s empty hnone
  cases empty with
  | true => exact doStart hnone hopen hreconnecting
  | false => exact going hturns hopen hreconnecting

theorem onTimer11 (h : s.Settled) : s.onTimer11.2.Settled := by
  unfold Connector.onTimer11
  split
  · rename_i hgraceful
    dsimp only
    split
    · exact h.same rfl rfl rfl rfl rfl
    · refine h.forceClose (h.closing ?_).2 s.reconnecting
      rw [isClosing, hgraceful]
      rfl
  · exact h

theorem step {a : Action} (h : s.Settled) (hok : Calm s a) (hs : Connector.step s a = some t) :
    t.Settled := by
  cases a with
  | start =>
    cases hs
    exact startUp hok.1 hok.2.1 hok.2.2
  | reset =>
    cases hs
    exact going h.turns rfl rfl
  | forceClose reconnect =>
    cases hs
    exact h.forceClose hok reconnect
  | gracefulClose reconnect sync ec =>
    cases hs
    exact h.gracefulClose hok reconnect sync ec
  | waitEnds =>
    obtain ⟨_, rfl⟩ := of_ite_some hs
    exact h.same rfl rfl rfl rfl rfl
  | waitTimesOut =>
    obtain ⟨_, rfl⟩ := of_ite_some hs
    obtain ⟨hconnected, hreads⟩ := h.closing hok
    exact cleanUp (s := { s with waits := s.waits - 1 }) h.turns hconnected hreads
  | connectHandler result delay =>
    obtain ⟨hpos, rfl⟩ := of_ite_some hs
    have hturns := h.turns
    obtain ⟨hopen, hreconnecting⟩ := h.busy (by unfold tokens; omega)
    refine connectHandler (s := { s with connects := s.connects - 1 }) ?_ hopen hreconnecting result
      delay
    unfold tokens at *
    simp only
    omega
  | connectEnds =>
    obtain ⟨hpos, rfl⟩ := of_ite_some hs
    have hturns := h.turns
    obtain ⟨hopen, hreconnecting⟩ := h.busy (by unfold tokens; omega)
    refine doStart (s := { s with onConnects := s.onConnects - 1 }) ?_ hopen hreconnecting
    unfold tokens at *
    simp only
    omega
  | recvHandler =>
    obtain ⟨hpos, rfl⟩ := of_ite_some hs
    have hreconnecting : s.reconnecting = true := by
      cases hreconnecting : s.reconnecting with
      | true => rfl
      | false =>
        have hnone := (h.closed hok hreconnecting).2
        unfold tokens at hnone
        omega
    refine going ?_ hok hreconnecting
    have hturns := h.turns
    unfold tokens at *
    simp only
    omega
  | recvError delay =>
    obtain ⟨hpos, rfl⟩ := of_ite_some hs
    refine onRecvError (s := { s with reads := s.reads - 1 }) ?_
      (fun hclosing => (h.closing hclosing).1) delay
    have hturns := h.turns
    unfold tokens at *
    simp only
    omega
  | dispatchEnds empty =>
    obtain ⟨hpos, rfl⟩ := of_ite_some hs
    have hturns := h.turns
    obtain ⟨hopen, hreconnecting⟩ := h.busy (by unfold tokens; omega)
    refine dispatchEnds (s := { s with dispatches := s.dispatches - 1 }) ?_ hopen hreconnecting
      empty
    unfold tokens at *
    simp only
    omega
  | timer0Expires =>
    obtain ⟨timer0, hexpire, rfl⟩ := Option.map_eq_some_iff.mp hs
    obtain ⟨_, rfl⟩ := TimerInfo.expire_eq_some hexpire
    refine h.same ?_ rfl rfl rfl rfl
    unfold tokens
    simp only
    omega
  | onTimer0 =>
    obtain ⟨timer0, hbegins, rfl⟩ := Option.map_eq_some_iff.mp hs
    obtain ⟨hexpired, rfl⟩ := TimerInfo.handlerBegins_eq_some hbegins
    have hturns := h.turns
    obtain ⟨hopen, hreconnecting⟩ := h.busy (by unfold tokens; omega)
    refine going ?_ hopen hreconnecting
    unfold tokens at *
    simp only
    omega
  | timer10Expires =>
    obtain ⟨timer10, hexpire, rfl⟩ := Option.map_eq_some_iff.mp hs
    obtain ⟨_, rfl⟩ := TimerInfo.expire_eq_some hexpire
    refine h.same ?_ rfl rfl rfl rfl
    unfold tokens
    simp only
    omega
  | onTimer10 =>
    obtain ⟨timer10, hbegins, rfl⟩ := Option.map_eq_some_iff.mp hs
    obtain ⟨hexpired, rfl⟩ := TimerInfo.handlerBegins_eq_some hbegins
    have hturns := h.turns
    obtain ⟨hopen, hreconnecting⟩ := h.busy (by unfold tokens; omega)
    refine doStart (s := { s with timer10 := _ }) ?_ hopen hreconnecting
    unfold tokens at *
    simp only
    omega
  | timer11Expires | timer11Restarts =>
    obtain ⟨timer11, _, rfl⟩ := Option.map_eq_some_iff.mp hs
    exact h.same rfl rfl rfl rfl rfl
  | onTimer11 =>
    obtain ⟨timer11, _, hs⟩ := Option.bind_eq_some_iff.mp hs
    obtain ⟨timer11', _, rfl⟩ := Option.map_eq_some_iff.mp hs
    have hwaits : { s with timer11 }.Settled := h.same rfl rfl rfl rfl rfl
    exact hwaits.onTimer11.same rfl rfl rfl rfl rfl
  | setStopped =>
    cases hs
    exact h.same rfl rfl rfl rfl rfl

end Settled

theorem reach_settled {s : Connector} (h : Reach step Calm start s) : s.Settled := by
  refine Reach.invariant (P := Settled) ⟨by decide, fun hfalse => ?_, fun _ hfalse => ?_⟩
    (fun _ _ _ _ ih hok hs => ih.step hok hs) h
  · cases hfalse
  · cases hfalse

/-- Only handlers run: nobody calls anything. -/
def HandlersOnly : Connector → Action → Prop
  | _, .start => False
  | _, .reset => False
  | _, .forceClose _ => False
  | _, .gracefulClose _ _ _ => False
  | _, .setStopped _ => False
  | _, _ => True

/-- A link that is being closed gracefully -/
structure Leaving (s : Connector) : Prop where
  closing : s.closeState = .graceful
  connected : s.connected = false
  running : s.stopped = false

namespace Leaving

variable {s : Connector}

theorem doStart (h : s.Leaving) : s.doStart.2 = { s with connects := s.connects + 1 } := by
  obtain ⟨hstopped, _⟩ | ⟨_, _, hs⟩ | ⟨_, hconnected, _⟩ := doStart_cases s
  · cases h.running.symm.trans hstopped
  · rw [hs]
  · cases h.connected.symm.trans hconnected

theorem message (h : s.Leaving) (hread : 0 < s.reads) :
    exec step s [.recvHandler, .dispatchEnds true] =
      some { s with reads := s.reads - 1, connects := s.connects + 1 } := by
  have hparsed : Leaving { s with reads := s.reads - 1, dispatches := s.dispatches } :=
    ⟨h.closing, h.connected, h.running⟩
  have hrecv : step s .recvHandler =
      some { s with reads := s.reads - 1, dispatches := s.dispatches + 1 } := if_pos hread
  have hends : step { s with reads := s.reads - 1, dispatches := s.dispatches + 1 }
      (.dispatchEnds true) =
      some { s with reads := s.reads - 1, connects := s.connects + 1 } := by
    simp only [step, Nat.succ_pos, if_true, Nat.add_sub_cancel]
    exact congrArg some hparsed.doStart
  rw [exec, hrecv, Option.bind_some, exec, hends]
  rfl

/-- The socket is in use. -/
theorem connect_fails (h : s.Leaving) (hconnects : 0 < s.connects) (delay : Nat) :
    exec step s [.connectHandler .other delay] =
      some { s with connects := s.connects - 1, timer10 := s.timer10.setTimer delay 0 } := by
  have hhandler : Connector.connectHandler { s with connects := s.connects - 1 } .other delay =
      { s with connects := s.connects - 1, timer10 := s.timer10.setTimer delay 0 } := by
    simp [Connector.connectHandler, h.running]
  have hfails : step s (.connectHandler .other delay) =
      some { s with connects := s.connects - 1, timer10 := s.timer10.setTimer delay 0 } :=
    (if_pos hconnects).trans (congrArg some hhandler)
  rw [exec, hfails]
  rfl

theorem connects_again (h : s.Leaving) (hpending : 0 < s.timer10.pending) :
    ∃ timer10, exec step s [.timer10Expires, .onTimer10] =
      some { s with timer10, connects := s.connects + 1 } := by
  obtain ⟨late, hexpires⟩ : ∃ late, s.timer10.expire = some late := ⟨_, if_pos hpending⟩
  obtain ⟨hpos, hlate⟩ := TimerInfo.expire_eq_some hexpires
  obtain ⟨timer10, hbegins⟩ : ∃ timer10, late.handlerBegins = some timer10 := by
    refine ⟨_, if_pos ?_⟩
    rw [hlate]
    exact Nat.lt_of_lt_of_le hpos (Nat.le_add_left _ _)
  have htimer : Leaving { s with timer10 } := ⟨h.closing, h.connected, h.running⟩
  refine ⟨timer10, ?_⟩
  simp only [exec, step, hexpires, hbegins, Option.map_some, Option.bind_some]
  exact congrArg some htimer.doStart

/-- `do_start` reads again, as the link is connected, though it is being closed. -/
theorem connects (h : s.Leaving) (hconnects : 0 < s.connects) (delay : Nat) :
    exec step s [.connectHandler .success delay, .connectEnds] = some { s with
      connects := s.connects - 1, connected := true, reconnecting := true
      reads := s.reads + 1 } := by
  have hdone : step s (.connectHandler .success delay) = some { s with
      connects := s.connects - 1, connected := true, reconnecting := true
      onConnects := s.onConnects + 1 } := (if_pos hconnects).trans (congrArg some (if_pos rfl))
  rw [exec, hdone, Option.bind_some]
  simp [exec, step, Connector.doStart, h.running]

end Leaving

/-- **A message on the way out**: whatever link is being closed gracefully, for
good or not, if one more message comes then `do_start` connects instead of
reading; this fails as the socket is in use, and sets timer 10. After `delay` it
connects again, and if that succeeds the link is connected, though nothing can be
sent over it. -/
theorem graceful_reconnects (s : Connector) (delay : Nat) (hclosing : s.closeState = .graceful)
    (hconnected : s.connected = false) (hrunning : s.stopped = false) (hread : 0 < s.reads) :
    ∃ u v w t,
      (exec step s [.recvHandler, .dispatchEnds true] = some u ∧ u.connects = s.connects + 1 ∧
        u.reads = s.reads - 1) ∧
      (exec step u [.connectHandler .other delay] = some v ∧ v.connects = s.connects ∧
        v.timer10.pending = 1 ∧ v.timer10.milliseconds = delay) ∧
      (exec step v [.timer10Expires, .onTimer10] = some w ∧ w.connects = s.connects + 1) ∧
      exec step w [.connectHandler .success delay, .connectEnds] = some t ∧
      Reach step HandlersOnly s t ∧ t.connected = true ∧ t.reconnecting = true ∧
      t.closeState = .graceful ∧ t.isSendAllowed = false := by
  have hs : s.Leaving := ⟨hclosing, hconnected, hrunning⟩
  have hu := hs.message hread
  have hv := Leaving.connect_fails
    (s := { s with reads := s.reads - 1, connects := s.connects + 1 })
    ⟨hclosing, hconnected, hrunning⟩ (Nat.succ_pos _) delay
  obtain ⟨timer10, hw⟩ := Leaving.connects_again (s := { s with
    reads := s.reads - 1, connects := s.connects, timer10 := s.timer10.setTimer delay 0 })
    ⟨hclosing, hconnected, hrunning⟩ Nat.one_pos
  have ht := Leaving.connects
    (s := { s with reads := s.reads - 1, connects := s.connects + 1, timer10 })
    ⟨hclosing, hconnected, hrunning⟩ (Nat.succ_pos _) delay
  have hreach : Reach step HandlersOnly s _ :=
    (((Reach.of_exec_forall _ (by simp [HandlersOnly]) hu).trans
      (Reach.of_exec_forall _ (by simp [HandlersOnly]) hv)).trans
      (Reach.of_exec_forall _ (by simp [HandlersOnly]) hw)).trans
      (Reach.of_exec_forall _ (by simp [HandlersOnly]) ht)
  refine ⟨_, _, _, _, ⟨hu, rfl, rfl⟩, ⟨hv, rfl, rfl, rfl⟩, ⟨hw, rfl⟩, ht, hreach, rfl, rfl,
    hclosing, ?_⟩
  simp [isSendAllowed, isClosing, hclosing]

/-- A link that has been closed for good as soon as it was connected -/
theorem graceful_reconnects_at_once : ∃ s t : Connector, s.reconnecting = false ∧
    Reach step HandlersOnly s t ∧ t.connected = true ∧ t.isSendAllowed = false := by
  let acts : List Action := [.start, .connectHandler .success 500, .connectEnds,
    .gracefulClose false false false]
  have hrun : (exec step start acts).map (fun s =>
      (s.reconnecting, decide (s.closeState = .graceful ∧ s.connected = false ∧
        s.stopped = false ∧ 0 < s.reads))) = some (false, true) := by
    decide +kernel
  obtain ⟨s, hs, hseen⟩ := Option.map_eq_some_iff.mp hrun
  simp only [Prod.mk.injEq, decide_eq_true_eq] at hseen
  obtain ⟨hfinal, hclosing, hconnected, hrunning, hread⟩ := hseen
  obtain ⟨_, _, _, t, _, _, _, _, ht, hagain, _, _, hunfit⟩ :=
    graceful_reconnects s 500 hclosing hconnected hrunning hread
  exact ⟨s, t, hfinal, ht, hagain, hunfit⟩

end Connector

end AsioTcp.Wrapper
