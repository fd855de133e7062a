import AsioTcp.Wrapper.RecvSide

/-!
# What becomes of the messages that are received

Reading, waiting on timer 0 and dispatching take turns (`read_token`), and if
the link is closed in a wait then nothing comes until it is started again
(`close_forgotten`). Each message is handled once, by one `msg_handler` at a time
(`dispatch_once`), and in order unless one is let past another that has found
the receive buffer full (`dispatch_ordered`).
-/

namespace AsioTcp.Wrapper.RecvSide

open Transition

variable {force : Bool} {maxMsgNum : Nat}

/-! ## Taking turns -/

/-- How many reads, waits on timer 0 and calls of `dispatch_msg` are under way. -/
def tokens (s : RecvSide) : Nat :=
  s.reads + s.timer0.pending + s.timer0.expired + s.calls.length

theorem dispatchAll_tokens (s : RecvSide) : (s.dispatchAll force).tokens = s.tokens := by
  unfold dispatchAll
  split <;> rfl

theorem doDispatchMsg_tokens (posting : Bool) (s : RecvSide) :
    (s.doDispatchMsg force posting).tokens = s.tokens := by
  obtain ⟨timer1, hs⟩ | ⟨_, hs⟩ | ⟨_, hs⟩ | ⟨_, msg, rest, _, hs⟩ :=
    doDispatchMsg_cases force posting s
  · rw [hs]
    rfl
  · rw [hs, dispatchAll_tokens]
    rfl
  · rw [hs, dispatchAll_tokens]
  · rw [hs]
    rfl

theorem setCall_tokens (s : RecvSide) (i : Nat) (c : Call) : (s.setCall i c).tokens = s.tokens := by
  unfold tokens setCall
  simp only [List.length_set]

theorem doStart_tokens (s : RecvSide) : s.doStart.2.tokens ≤ s.tokens + 1 := by
  obtain ⟨_, hs⟩ | ⟨_, hs⟩ := doStart_cases s
  · rw [hs]
    exact Nat.le_succ _
  · rw [hs]
    unfold tokens
    simp only
    omega

theorem startUp_tokens {s : RecvSide} (hok : s.started = true ∨ s.tokens = 0)
    (h : s.tokens ≤ 1) : s.startUp.tokens ≤ 1 := by
  unfold startUp
  split
  · exact h
  · rename_i hnot
    have hnone := hok.resolve_left hnot
    exact Nat.le_trans (doStart_tokens s) (Nat.succ_le_succ (Nat.le_of_eq hnone))

/-- `start` is not called. -/
def NoStart : RecvSide → Action → Prop
  | _, .start => False
  | _, _ => True

instance (s : RecvSide) (a : Action) : Decidable (NoStart s a) := by
  cases a <;> unfold NoStart <;> infer_instance

theorem step_tokens {s t : RecvSide} {a : Action} (hok : NoStart s a)
    (hs : step force maxMsgNum s a = some t) (h : s.tokens ≤ 1) : t.tokens ≤ s.tokens := by
  cases a with
  | start => exact hok.elim
  | recvHandler msgs unpackOk =>
    obtain ⟨hreads, rfl⟩ := step_recvHandler hs
    unfold tokens
    simp only [List.length_append, List.length_singleton]
    omega
  | onUnpackError =>
    obtain ⟨_, rfl⟩ := step_onUnpackError hs
    exact Nat.le_refl _
  | recvError =>
    obtain ⟨hreads, rfl⟩ := step_recvError hs
    unfold tokens
    simp only
    omega
  | timer0Expires =>
    obtain ⟨timer0, hexpire, rfl⟩ := Option.map_eq_some_iff.mp hs
    obtain ⟨_, rfl⟩ := TimerInfo.expire_eq_some hexpire
    unfold tokens
    simp only
    omega
  | timer1Expires =>
    obtain ⟨timer1, _, rfl⟩ := Option.map_eq_some_iff.mp hs
    exact Nat.le_refl _
  | timer3Expires =>
    obtain ⟨timer3, _, rfl⟩ := Option.map_eq_some_iff.mp hs
    exact Nat.le_refl _
  | onTimer0 =>
    obtain ⟨timer0, hbegins, rfl⟩ := Option.map_eq_some_iff.mp hs
    obtain ⟨hexpired, rfl⟩ := TimerInfo.handlerBegins_eq_some hbegins
    unfold tokens
    simp only [List.length_append, List.length_singleton]
    omega
  | onTimer1 posting =>
    obtain ⟨timer1, _, rfl⟩ := Option.map_eq_some_iff.mp hs
    exact Nat.le_of_eq (doDispatchMsg_tokens posting { s with timer1 })
  | onTimer3 posting =>
    obtain ⟨timer3, _, rfl⟩ := Option.map_eq_some_iff.mp hs
    exact Nat.le_of_eq (doDispatchMsg_tokens posting { s with timer3 })
  | onMsg i handled =>
    obtain ⟨k, dispatch, msg, _, _, _, rfl⟩ := step_onMsg hs
    refine Nat.le_of_eq ?_
    unfold accept refuse
    split
    · exact setCall_tokens _ i _
    · split
      · exact setCall_tokens _ i _
      · exact setCall_tokens _ i _
  | scanEnds i posting =>
    obtain ⟨k, dispatch, _, rfl⟩ := step_scanEnds hs
    exact Nat.le_of_eq (setCall_tokens s i _)
  | splices i posting =>
    obtain ⟨_, rfl⟩ := step_splices hs
    refine Nat.le_of_eq ((setCall_tokens _ i _).trans ?_)
    exact spliceTemp_keeps (P := fun t => t.tokens = s.tokens) rfl rfl
      (doDispatchMsg_tokens posting (s.moveTemp maxMsgNum))
  | callDispatches i posting =>
    obtain ⟨_, rfl⟩ := step_callDispatches hs
    exact Nat.le_of_eq ((setCall_tokens _ i _).trans (doDispatchMsg_tokens posting s))
  | finishes i =>
    obtain ⟨hcall, rfl⟩ := step_finishes hs
    have hlt := (List.getElem?_eq_some_iff.mp hcall).1
    have hless := List.length_eraseIdx_of_lt hlt
    have hone : s.reads + s.timer0.pending + s.timer0.expired + s.calls.length ≤ 1 := h
    have hleft : (s.leave i).tokens + 1 = s.tokens := by
      unfold tokens leave
      simp only [hless]
      omega
    unfold finish
    split
    · exact hleft ▸ doStart_tokens (s.leave i)
    · unfold tokens leave TimerInfo.setTimer TimerInfo.startTimer at *
      simp only at *
      omega
  | onMsgHandle re =>
    obtain ⟨_, rfl⟩ := step_onMsgHandle hs
    exact Nat.le_refl _
  | handlerEnds i posting =>
    obtain ⟨re, _, rfl⟩ := Option.map_eq_some_iff.mp hs
    refine Nat.le_of_eq (handlerEnds_keeps (P := fun t => t.tokens = s.tokens) (fun _ => ?_)
      (fun _ => rfl) (fun _ _ ht => ht))
    exact doDispatchMsg_tokens posting { s with
      running := s.running.eraseIdx i, dispatching := false }
  | dispatch posting =>
    cases hs
    exact Nat.le_of_eq (doDispatchMsg_tokens posting s)
  | stopAllTimer =>
    cases hs
    unfold tokens TimerInfo.stopTimer
    simp only
    omega
  | suspendDispatchMsg | resetState | setOpen | setStopped | popRecv | clearBuffer =>
    cases hs
    exact Nat.le_refl _

/-- `start` is called only where it does nothing, or while nothing is under way. -/
def Apart (s : RecvSide) : Action → Prop
  | .start => s.started = true ∨ s.tokens = 0
  | _ => True

instance (s : RecvSide) (a : Action) : Decidable (Apart s a) := by
  cases a <;> unfold Apart <;> infer_instance

theorem step_turns {s t : RecvSide} {a : Action} (hok : Apart s a)
    (hs : step force maxMsgNum s a = some t) (h : s.tokens ≤ 1) : t.tokens ≤ 1 := by
  cases a with
  | start =>
    cases hs
    exact startUp_tokens hok h
  | _ =>
    refine Nat.le_trans (step_tokens ?_ hs h) h
    trivial

theorem reach_tokens {s : RecvSide} (h : Reach (step force maxMsgNum) Apart start s) :
    s.tokens ≤ 1 :=
  Reach.invariant (P := fun s => s.tokens ≤ 1) (by decide)
    (fun _ _ _ _ ih hok hs => step_turns hok hs ih) h

/-- **Taking turns**: once the socket has been started, in every run in which it
is started again only while nothing is under way, reading, waiting on timer 0 and
`dispatch_msg` exclude each other and themselves. (The end of `recv_handler` is
not among them: it runs beside the next read.) -/
theorem read_token (force : Bool) (maxMsgNum : Nat) (s : RecvSide)
    (h : Reach (step force maxMsgNum) Apart start s) :
    s.reads + s.timer0.pending + s.timer0.expired + s.calls.length ≤ 1 :=
  reach_tokens h

/-- A message waits for timer 0 and is moved into the receive buffer; the next
read fails, and the socket is closed and started again. -/
theorem read_token_next : ∃ s : RecvSide, s.reads = 1 ∧ s.queued = 1 ∧
    s.reads + s.timer0.pending + s.timer0.expired + s.calls.length ≤ 1 := by
  let acts : List Action := [.recvHandler [[1]] true, .scanEnds 0 true, .finishes 0,
    .timer0Expires, .onTimer0, .onMsg 0 false, .scanEnds 0 false, .callDispatches 0 false,
    .finishes 0, .recvError, .stopAllTimer, .resetState, .start]
  have hrun : (exec (guarded (step false 1024) Apart) start acts).map
      (fun s => (s.reads, s.queued)) = some (1, 1) := by
    decide +kernel
  obtain ⟨s, hs, hseen⟩ := Option.map_eq_some_iff.mp hrun
  simp only [Prod.mk.injEq] at hseen
  exact ⟨s, hseen.1, hseen.2, read_token false 1024 s (Reach.of_exec_guarded acts hs)⟩

/-- What cannot be unpacked is told of while the next read is under way. -/
example : (exec (step false 1024) start
    [.recvHandler [] false, .scanEnds 0 false, .finishes 0]).map
      (fun s => (s.reads, s.unpackErrors)) = some (1, 1) := by
  decide

/-- **Closed and forgotten**: if all timers are stopped, as `force_close` does,
while messages wait for timer 0, then until `start` is called nothing is read
again and no `recv_handler` comes to tell of it, so that `on_recv_error` is not
called. -/
theorem close_forgotten (force : Bool) (maxMsgNum : Nat) (s stopped later : RecvSide)
    (h : Reach (step force maxMsgNum) Apart start s) (hwaits : 0 < s.timer0.pending)
    (hstop : step force maxMsgNum s .stopAllTimer = some stopped)
    (hlater : Reach (step force maxMsgNum) NoStart stopped later) :
    later.reads = 0 ∧ later.calls = [] ∧ step force maxMsgNum later .recvError = none ∧
      ∀ msgs unpackOk, step force maxMsgNum later (.recvHandler msgs unpackOk) = none := by
  have hnone : stopped.tokens = 0 := by
    have htoken := reach_tokens h
    cases hstop
    unfold tokens TimerInfo.stopTimer at *
    simp only
    omega
  have hall : later.tokens ≤ 0 := by
    refine Reach.invariant (P := fun s => s.tokens ≤ 0) (Nat.le_of_eq hnone) ?_ hlater
    intro s a t _ ih hok hs
    exact Nat.le_trans (step_tokens hok hs (Nat.le_trans ih (Nat.zero_le 1))) ih
  have hreads : later.reads = 0 := by
    unfold tokens at hall
    omega
  have hcalls : later.calls = [] := by
    unfold tokens at hall
    exact List.length_eq_zero_iff.mp (by omega)
  refine ⟨hreads, hcalls, ?_, fun msgs unpackOk => ?_⟩
  · simp only [step, hreads, Nat.lt_irrefl, if_false]
  · simp only [step, hreads, Nat.lt_irrefl, if_false]

/-- Dispatching is suspended when a message comes, and the link is closed. -/
theorem close_forgotten_suspended : ∃ stopped : RecvSide, stopped.tempMsgBuffer = [[7]] ∧
    stopped.reads = 0 ∧
    ∀ msgs unpackOk, step false 1024 stopped (.recvHandler msgs unpackOk) = none := by
  let acts : List Action := [.suspendDispatchMsg true, .recvHandler [[7]] true,
    .scanEnds 0 false, .finishes 0]
  have hrun : (exec (guarded (step false 1024) Apart) start acts).map
      (fun s => (s.tempMsgBuffer, s.timer0.pending)) = some ([[7]], 1) := by
    decide +kernel
  obtain ⟨s, hs, hseen⟩ := Option.map_eq_some_iff.mp hrun
  simp only [Prod.mk.injEq] at hseen
  obtain ⟨stopped, hstop, htemp⟩ : ∃ t, step false 1024 s .stopAllTimer = some t ∧
      t.tempMsgBuffer = s.tempMsgBuffer := ⟨_, rfl, rfl⟩
  have hall := close_forgotten false 1024 s stopped stopped (Reach.of_exec_guarded acts hs)
    (by rw [hseen.2]; exact Nat.one_pos) hstop .refl
  exact ⟨stopped, htemp.trans hseen.1, hall.1, hall.2.2.2⟩

/-! ## One handler at a time -/

/-- There is one `msg_handler` while `dispatching`, and none otherwise. -/
def Single (s : RecvSide) : Prop :=
  (s.dispatching = true ∧ s.queued + s.running.length = 1) ∨
    (s.dispatching = false ∧ s.queued = 0 ∧ s.running = [])

/-- No `msg_handler` is under way. -/
def NoHandler (s : RecvSide) : Prop := s.queued = 0 ∧ s.running = []

/-- The message that a `msg_handler` still has to give to `on_msg_handle`, or
has to put back. -/
def inHand (s : RecvSide) : List Msg :=
  if 0 < s.queued ∨ false ∈ s.running then [s.lastDispatchMsg] else []

/-- The messages in the order in which they are, or have been, handled. -/
def waiting (s : RecvSide) : WaitingLine Msg :=
  ⟨s.out ++ (s.inHand ++ (s.recvMsgBuffer ++ s.tempMsgBuffer)), s.unpacked, s.taken ++ s.thrown⟩

theorem NoHandler.inHand {s : RecvSide} (h : s.NoHandler) : s.inHand = [] := by
  obtain ⟨hqueued, hrunning⟩ := h
  unfold RecvSide.inHand
  rw [hqueued, hrunning]
  rfl

theorem Single.noHandler {s : RecvSide} (h : s.Single) (hidle : s.dispatching = false) :
    s.NoHandler := by
  obtain ⟨hbusy, _⟩ | ⟨_, hnone⟩ := h
  · cases hidle.symm.trans hbusy
  · exact hnone

theorem dispatchAll_waiting {s : RecvSide} (h : s.NoHandler) :
    (s.dispatchAll force).waiting = s.waiting := by
  have hnone : (s.dispatchAll force).NoHandler := by
    unfold dispatchAll
    split <;> exact h
  unfold waiting
  rw [h.inHand, hnone.inHand]
  unfold dispatchAll
  split
  · simp only [List.nil_append, List.append_nil]
  · simp only [List.nil_append, List.append_assoc]

theorem dispatchAll_single {s : RecvSide} (h : s.NoHandler) (hidle : s.dispatching = false) :
    (s.dispatchAll force).Single := by
  unfold dispatchAll
  split <;> exact .inr ⟨hidle, h⟩

/-- What `do_dispatch_msg` does leaves every message where it was in the line. -/
theorem doDispatchMsg_waiting (force : Bool) {s : RecvSide} (h : s.Single)
    (hok : s.stopped = false ∨ s.NoHandler)
    (posting : Bool) : (s.doDispatchMsg force posting).waiting = s.waiting ∧
      (s.doDispatchMsg force posting).Single := by
  obtain ⟨timer1, hs⟩ | ⟨hstopped, hs⟩ | ⟨hidle, hs⟩ | ⟨hidle, msg, rest, hbuffer, hs⟩ :=
    doDispatchMsg_cases force posting s
  · rw [hs]
    exact ⟨rfl, h⟩
  · have hnone : { s with dispatching := false }.NoHandler := by
      obtain hrunning | hnone := hok
      · cases hstopped.symm.trans hrunning
      · exact hnone
    rw [hs]
    exact ⟨dispatchAll_waiting hnone, dispatchAll_single hnone rfl⟩
  · rw [hs]
    exact ⟨dispatchAll_waiting (h.noHandler hidle), dispatchAll_single (h.noHandler hidle) hidle⟩
  · obtain ⟨hqueued, hrunning⟩ := h.noHandler hidle
    have hnone := (h.noHandler hidle).inHand
    rw [hs]
    refine ⟨?_, .inl ⟨rfl, by rw [hqueued, hrunning]; rfl⟩⟩
    unfold waiting
    rw [hnone, hbuffer]
    simp only [inHand, Nat.succ_pos, true_or, if_true, List.cons_append, List.nil_append]

/-- A call of `do_dispatch_msg` from outside, or `reset_state`, does not meet a
`msg_handler` where the one would forget it: the service is not stopped, and
the state not reset, while one is under way. The socket is started as in
`Apart`, and its buffers are cleared while nothing is under way. -/
def Quiet (s : RecvSide) : Action → Prop
  | .start => s.started = true ∨ s.tokens = 0
  | .clearBuffer => s.tokens = 0
  | .resetState => s.NoHandler
  | .onTimer1 _ => s.stopped = false ∨ s.NoHandler
  | .onTimer3 _ => s.stopped = false ∨ s.NoHandler
  | .splices _ _ => s.stopped = false ∨ s.NoHandler
  | .callDispatches _ _ => s.stopped = false ∨ s.NoHandler
  | .dispatch _ => s.stopped = false ∨ s.NoHandler
  | _ => True

instance (s : RecvSide) (a : Action) : Decidable (Quiet s a) := by
  cases a <;> unfold Quiet <;> unfold NoHandler <;> infer_instance

/-- The action lets a message past others that have found the receive buffer
full in the same call of `dispatch_msg`. -/
def Passes (maxMsgNum : Nat) (s : RecvSide) : Action → Prop
  | .onMsg i false => s.recvMsgBuffer.length < maxMsgNum ∧
      (s.calls[i]?.bind Call.scanning).any (fun call => 0 < call.1) = true
  | _ => False

instance (s : RecvSide) (a : Action) : Decidable (Passes maxMsgNum s a) := by
  cases a with
  | onMsg i handled => cases handled <;> unfold Passes <;> infer_instance
  | _ => unfold Passes; infer_instance

theorem onMsg_waiting {s : RecvSide} {i k : Nat} {d handled : Bool} {msg : Msg}
    (hcall : s.calls[i]? = some (.scan k d)) (hmsg : s.tempMsgBuffer[k]? = some msg) :
    WaitingLine.Step (Passes maxMsgNum s (.onMsg i handled)) s.waiting
      (if handled then s.accept i k d msg else s.refuse maxMsgNum i k d msg).waiting := by
  obtain ⟨hk, hget⟩ := List.getElem?_eq_some_iff.mp hmsg
  have herase := List.eraseIdx_eq_take_drop_succ s.tempMsgBuffer k
  have hsplit : s.tempMsgBuffer =
      s.tempMsgBuffer.take k ++ msg :: s.tempMsgBuffer.drop (k + 1) := by
    rw [← hget, List.getElem_cons_drop, List.take_append_drop]
  cases handled with
  | true =>
    have hleft : ((s.taken ++ [msg]) ++ s.thrown).Perm ([msg] ++ (s.taken ++ s.thrown)) := by
      rw [← List.append_assoc]
      exact List.perm_append_comm.append_right s.thrown
    have hstep := @WaitingLine.Step.leave _ (Passes maxMsgNum s (.onMsg i true))
      (s.out ++ (s.inHand ++ (s.recvMsgBuffer ++ s.tempMsgBuffer.take k))) [msg]
      (s.tempMsgBuffer.drop (k + 1)) s.unpacked _ _ hleft
    simp only [List.append_assoc, List.singleton_append, ← hsplit, ← herase] at hstep
    simp only [waiting, if_true, accept, setCall, List.append_assoc, List.singleton_append]
    exact hstep
  | false =>
    unfold refuse
    simp only [Bool.false_eq_true, if_false]
    split
    · rename_i hroom
      cases k with
      | zero =>
        have hsame : ({ s with
            tempMsgBuffer := s.tempMsgBuffer.eraseIdx 0
            recvMsgBuffer := s.recvMsgBuffer ++ [msg] }.setCall i (.scan 0 true)).waiting =
            s.waiting := by
          rw [List.take_zero, List.nil_append] at hsplit herase
          unfold waiting setCall
          simp only [herase, List.append_assoc, List.singleton_append, ← hsplit]
          rfl
        rw [hsame]
        exact .same _
      | succ k =>
        have hstep := @WaitingLine.Step.pass _ (Passes maxMsgNum s (.onMsg i false))
          (s.out ++ (s.inHand ++ s.recvMsgBuffer)) (s.tempMsgBuffer.take (k + 1))
          (s.tempMsgBuffer.drop (k + 1 + 1)) s.unpacked (s.taken ++ s.thrown) msg
          ⟨hroom, by simp [hcall, Call.scanning]⟩
        simp only [List.append_assoc, ← hsplit, ← herase] at hstep
        simp only [waiting, setCall, List.append_assoc, List.singleton_append]
        exact hstep
    · exact .same _

theorem Single.onMsgHandle {s : RecvSide} (h : s.Single) (hqueued : 0 < s.queued) :
    s.dispatching = true ∧ s.queued = 1 ∧ s.running = [] := by
  obtain ⟨hbusy, hone⟩ | ⟨_, hnone, _⟩ := h
  · exact ⟨hbusy, by omega, List.length_eq_zero_iff.mp (by omega)⟩
  · omega

theorem Single.handlerEnds {s : RecvSide} (h : s.Single) {i : Nat} {re : Bool}
    (hi : s.running[i]? = some re) : s.queued = 0 ∧ s.running = [re] ∧ i = 0 := by
  have hlt := (List.getElem?_eq_some_iff.mp hi).1
  obtain ⟨_, hone⟩ | ⟨_, _, hnone⟩ := h
  · obtain ⟨re', hre'⟩ := List.length_eq_one_iff.mp (show s.running.length = 1 by omega)
    rw [hre', List.length_singleton] at hlt
    have hzero : i = 0 := by omega
    rw [hzero, hre'] at hi
    cases hi
    exact ⟨by rw [hre', List.length_singleton] at hone; omega, hre', hzero⟩
  · rw [hnone] at hlt
    exact absurd hlt (Nat.not_lt_zero i)

theorem moveTemp_waiting (maxMsgNum : Nat) (s : RecvSide) :
    (s.moveTemp maxMsgNum).waiting = s.waiting := by
  have hinHand : (s.moveTemp maxMsgNum).inHand = s.inHand := rfl
  unfold waiting
  rw [hinHand]
  simp only [moveTemp, SendSide.spliceHelper_eq, List.append_assoc, List.take_append_drop]

theorem clear_waiting {s t : RecvSide} (hidle : t.dispatching = false)
    (h : t.waiting = s.waiting ∧ t.Single) :
    { t with lastDispatchMsg := [] }.waiting = s.waiting ∧
      { t with lastDispatchMsg := [] }.Single := by
  have hnone := h.2.noHandler hidle
  have hcleared : { t with lastDispatchMsg := [] }.NoHandler := hnone
  refine ⟨?_, h.2⟩
  rw [← h.1]
  unfold waiting
  rw [hnone.inHand, hcleared.inHand]

theorem handlerEnds_waiting {s : RecvSide} (h : s.Single) {i : Nat} {re : Bool}
    (hi : s.running[i]? = some re) (posting : Bool) :
    ({ s with running := s.running.eraseIdx i }.handlerEnds force posting re).waiting = s.waiting ∧
      ({ s with running := s.running.eraseIdx i }.handlerEnds force posting re).Single := by
  obtain ⟨hqueued, hrunning, rfl⟩ := h.handlerEnds hi
  have hnone : { s with running := s.running.eraseIdx 0, dispatching := false }.NoHandler := by
    refine ⟨hqueued, ?_⟩
    simp only [hrunning, List.eraseIdx_zero, List.tail_cons]
  have hidle : { s with running := s.running.eraseIdx 0, dispatching := false }.Single :=
    .inr ⟨rfl, hnone⟩
  refine handlerEnds_keeps (P := fun t => t.waiting = s.waiting ∧ t.Single) (fun hre => ?_)
    (fun hre => ?_) (fun _ => clear_waiting)
  · subst hre
    obtain ⟨hsame, hsingle⟩ := doDispatchMsg_waiting force hidle (.inr hnone) posting
    refine ⟨hsame.trans ?_, hsingle⟩
    unfold waiting
    rw [hnone.inHand]
    simp [inHand, hqueued, hrunning]
  · subst hre
    have hback :
        { s with running := s.running.eraseIdx 0, dispatching := false }.putBack.NoHandler :=
      hnone
    refine ⟨?_, .inr ⟨rfl, hback⟩⟩
    unfold waiting
    rw [hback.inHand]
    simp [inHand, hrunning, putBack]

theorem step_waiting {s t : RecvSide} {a : Action} (hok : Quiet s a)
    (hs : step force maxMsgNum s a = some t) (h : s.Single) :
    WaitingLine.Step (Passes maxMsgNum s a) s.waiting t.waiting ∧ t.Single := by
  have hsame : ∀ {t : RecvSide}, t.waiting = s.waiting ∧ t.Single →
      WaitingLine.Step (Passes maxMsgNum s a) s.waiting t.waiting ∧ t.Single := by
    intro t ht
    rw [ht.1]
    exact ⟨.same _, ht.2⟩
  cases a with
  | start =>
    cases hs
    obtain ⟨_, _, hstart⟩ := startUp_eq s
    rw [hstart]
    exact hsame ⟨rfl, h⟩
  | onUnpackError =>
    obtain ⟨_, rfl⟩ := step_onUnpackError hs
    exact hsame ⟨rfl, h⟩
  | recvHandler msgs unpackOk =>
    obtain ⟨_, rfl⟩ := step_recvHandler hs
    refine ⟨?_, h⟩
    have hstep := @WaitingLine.Step.join _ (Passes maxMsgNum s (.recvHandler msgs unpackOk))
      (s.out ++ (s.inHand ++ (s.recvMsgBuffer ++ s.tempMsgBuffer))) s.unpacked
      (s.taken ++ s.thrown) msgs
    simp only [List.append_assoc] at hstep
    exact hstep
  | recvError =>
    obtain ⟨_, rfl⟩ := step_recvError hs
    exact hsame ⟨rfl, h⟩
  | timer0Expires | timer1Expires | timer3Expires | onTimer0 =>
    obtain ⟨_, _, rfl⟩ := Option.map_eq_some_iff.mp hs
    exact hsame ⟨rfl, h⟩
  | onTimer1 posting =>
    obtain ⟨timer1, _, rfl⟩ := Option.map_eq_some_iff.mp hs
    exact hsame (doDispatchMsg_waiting force (s := { s with timer1 }) h hok posting)
  | onTimer3 posting =>
    obtain ⟨timer3, _, rfl⟩ := Option.map_eq_some_iff.mp hs
    exact hsame (doDispatchMsg_waiting force (s := { s with timer3 }) h hok posting)
  | onMsg i handled =>
    obtain ⟨k, d, msg, hcall, hmsg, _, rfl⟩ := step_onMsg hs
    refine ⟨onMsg_waiting hcall hmsg, ?_⟩
    unfold accept refuse
    split
    · exact h
    · split <;> exact h
  | scanEnds i posting =>
    obtain ⟨k, d, _, rfl⟩ := step_scanEnds hs
    exact hsame ⟨rfl, h⟩
  | splices i posting =>
    obtain ⟨_, rfl⟩ := step_splices hs
    have hmove := moveTemp_waiting maxMsgNum s
    have hdispatch := doDispatchMsg_waiting true (s := s.moveTemp maxMsgNum) h hok
      posting
    exact hsame (spliceTemp_keeps (P := fun t => t.waiting = s.waiting ∧ t.Single) ⟨rfl, h⟩
      ⟨hmove, h⟩ ⟨hdispatch.1.trans hmove, hdispatch.2⟩)
  | callDispatches i posting =>
    obtain ⟨_, rfl⟩ := step_callDispatches hs
    exact hsame (doDispatchMsg_waiting force h hok posting)
  | finishes i =>
    obtain ⟨_, rfl⟩ := step_finishes hs
    obtain ⟨_, _, hfinish⟩ := finish_eq (s.leave i)
    rw [hfinish]
    exact hsame ⟨rfl, h⟩
  | onMsgHandle re =>
    obtain ⟨hpos, rfl⟩ := step_onMsgHandle hs
    obtain ⟨hbusy, hqueued, hrunning⟩ := h.onMsgHandle hpos
    refine hsame ⟨?_, .inl ⟨hbusy, ?_⟩⟩
    · unfold waiting inHand
      cases re with
      | true => simp [hqueued, hrunning]
      | false => simp [hqueued, hrunning]
    · simp [hqueued, hrunning]
  | handlerEnds i posting =>
    obtain ⟨re, hi, rfl⟩ := Option.map_eq_some_iff.mp hs
    exact hsame (handlerEnds_waiting h hi posting)
  | dispatch posting =>
    cases hs
    exact hsame (doDispatchMsg_waiting force h hok posting)
  | resetState =>
    cases hs
    exact hsame ⟨rfl, .inr ⟨rfl, hok⟩⟩
  | popRecv n =>
    cases hs
    refine ⟨?_, h⟩
    have hleft : (s.taken ++ (s.thrown ++ s.recvMsgBuffer.take n)).Perm
        (s.recvMsgBuffer.take n ++ (s.taken ++ s.thrown)) := by
      rw [← List.append_assoc]
      exact List.perm_append_comm
    have hstep := @WaitingLine.Step.leave _ (Passes maxMsgNum s (.popRecv n))
      (s.out ++ s.inHand) (s.recvMsgBuffer.take n) (s.recvMsgBuffer.drop n ++ s.tempMsgBuffer)
      s.unpacked _ _ hleft
    rw [← List.append_assoc (s.recvMsgBuffer.take n), List.take_append_drop] at hstep
    simp only [List.append_assoc] at hstep
    exact hstep
  | clearBuffer =>
    cases hs
    refine ⟨?_, h⟩
    have hleft : (s.taken ++ (s.thrown ++ (s.recvMsgBuffer ++ s.tempMsgBuffer))).Perm
        ((s.recvMsgBuffer ++ s.tempMsgBuffer) ++ (s.taken ++ s.thrown)) := by
      rw [← List.append_assoc]
      exact List.perm_append_comm
    have hstep := @WaitingLine.Step.leave _ (Passes maxMsgNum s .clearBuffer)
      (s.out ++ s.inHand) (s.recvMsgBuffer ++ s.tempMsgBuffer) [] s.unpacked _ _ hleft
    simp only [List.append_assoc, List.append_nil] at hstep
    simp only [waiting, List.append_nil]
    exact hstep
  | suspendDispatchMsg | stopAllTimer | setOpen | setStopped =>
    cases hs
    exact hsame ⟨rfl, h⟩

theorem reach_single {s : RecvSide} (h : Reach (step force maxMsgNum) Quiet start s) : s.Single :=
  Reach.invariant (P := Single) (.inr ⟨rfl, rfl, rfl⟩)
    (fun _ _ _ _ ih hok hs => (step_waiting hok hs ih).2) h

theorem reach_conserved {s : RecvSide} (h : Reach (step force maxMsgNum) Quiet start s) :
    s.waiting.Conserved := by
  refine Reach.invariant (P := fun s => s.waiting.Conserved) (List.Perm.refl []) ?_ h
  intro s a t hr ih hok hs
  exact (step_waiting hok hs (reach_single hr)).1.conserved ih

/-- **Each message is handled once**, as long as no `msg_handler` is forgotten:
one of them is under way at a time, and what has been unpacked is what has been
accepted by `on_msg` or `on_msg_handle`, is in hand or waits, or has been thrown
away, whatever the two have returned and however often. -/
theorem dispatch_once (force : Bool) (maxMsgNum : Nat) (s : RecvSide)
    (h : Reach (step force maxMsgNum) Quiet start s) :
    s.queued + s.running.length = (if s.dispatching then 1 else 0) ∧
      (s.out ++ (s.inHand ++ (s.recvMsgBuffer ++ s.tempMsgBuffer)) ++
        (s.taken ++ s.thrown)).Perm s.unpacked := by
  constructor
  · obtain ⟨hbusy, hone⟩ | ⟨hidle, hqueued, hrunning⟩ := reach_single h
    · rw [hbusy, hone]
      rfl
    · rw [hidle, hqueued, hrunning]
      rfl
  · exact reach_conserved h

/-- Two messages; the first is refused once by `on_msg_handle`, the second is
accepted by `on_msg`. -/
theorem dispatch_once_again : ∃ s : RecvSide,
    s.taken = [[2]] ∧ s.out = [[1]] ∧ s.queued + s.running.length = 1 ∧
    (s.out ++ (s.inHand ++ (s.recvMsgBuffer ++ s.tempMsgBuffer)) ++
      (s.taken ++ s.thrown)).Perm s.unpacked := by
  let acts : List Action := [.recvHandler [[1], [2]] true, .onMsg 0 false, .onMsg 0 true,
    .scanEnds 0 false, .callDispatches 0 false, .finishes 0, .onMsgHandle false,
    .handlerEnds 0 false, .timer3Expires, .onTimer3 false, .onMsgHandle true]
  have hrun : (exec (guarded (step false 1024) Quiet) start acts).map
      (fun s => (s.taken, s.out, s.queued + s.running.length)) = some ([[2]], [[1]], 1) := by
    decide +kernel
  obtain ⟨s, hs, hseen⟩ := Option.map_eq_some_iff.mp hrun
  simp only [Prod.mk.injEq] at hseen
  exact ⟨s, hseen.1, hseen.2.1, hseen.2.2,
    (dispatch_once false 1024 s (Reach.of_exec_guarded acts hs)).2⟩

theorem reach_ordered {s : RecvSide}
    (h : Reach (step force maxMsgNum) (fun s a => Quiet s a ∧ ¬ Passes maxMsgNum s a) start s) :
    s.waiting.Ordered := by
  refine Reach.invariant (P := fun s => s.waiting.Ordered) (List.Sublist.refl []) ?_ h
  intro s a t hr ih hok hs
  have hsingle := reach_single (hr.mono fun _ _ hok => hok.1)
  exact (step_waiting hok.1 hs hsingle).1.ordered hok.2 ih

/-- Where nothing has been accepted by `on_msg` or thrown away, all is in the line. -/
theorem waiting_eq {s : RecvSide} (hconserved : s.waiting.Conserved) (hordered : s.waiting.Ordered)
    (htaken : s.taken = []) (hthrown : s.thrown = []) :
    s.out ++ (s.inHand ++ (s.recvMsgBuffer ++ s.tempMsgBuffer)) = s.unpacked := by
  refine WaitingLine.eq_joined (w := s.waiting) hconserved hordered ?_
  simp only [waiting, htaken, hthrown, List.append_nil]

/-- **In order**: if none is let past another that has found the receive buffer
full, the messages are handled in the order in which they have been unpacked,
also those that are dispatched again; and if `on_msg` accepts none, all are. -/
theorem dispatch_ordered (force : Bool) (maxMsgNum : Nat) (s : RecvSide)
    (h : Reach (step force maxMsgNum) (fun s a => Quiet s a ∧ ¬ Passes maxMsgNum s a) start s) :
    (s.out ++ (s.inHand ++ (s.recvMsgBuffer ++ s.tempMsgBuffer))).Sublist s.unpacked ∧
      (s.taken = [] → s.thrown = [] →
        s.out ++ (s.inHand ++ (s.recvMsgBuffer ++ s.tempMsgBuffer)) = s.unpacked) :=
  ⟨reach_ordered h, waiting_eq (reach_conserved (h.mono fun _ _ hok => hok.1)) (reach_ordered h)⟩

/-- A receive buffer for one message: the second one waits for timer 0. -/
theorem dispatch_ordered_full : ∃ s : RecvSide,
    s.unpacked = [[1], [2]] ∧ s.recvMsgBuffer = [[2]] ∧
    s.out ++ (s.inHand ++ (s.recvMsgBuffer ++ s.tempMsgBuffer)) = s.unpacked := by
  let acts : List Action := [.recvHandler [[1], [2]] true, .onMsg 0 false, .onMsg 0 false,
    .scanEnds 0 false, .callDispatches 0 false, .finishes 0, .timer0Expires, .onTimer0,
    .onMsg 0 false]
  have hrun : (exec (guarded (step false 1) fun s a => Quiet s a ∧ ¬ Passes 1 s a) start acts).map
      (fun s => (s.unpacked, s.recvMsgBuffer, s.taken, s.thrown)) =
      some ([[1], [2]], [[2]], [], []) := by
    decide +kernel
  obtain ⟨s, hs, hseen⟩ := Option.map_eq_some_iff.mp hrun
  simp only [Prod.mk.injEq] at hseen
  obtain ⟨hunpacked, hrecv, htaken, hthrown⟩ := hseen
  exact ⟨s, hunpacked, hrecv, (dispatch_ordered false 1 s (Reach.of_exec_guarded acts hs)).2
    htaken hthrown⟩

/-! ## With the receive buffer forced -/

/-- No call of `dispatch_msg` is at a single message, and `on_msg` has accepted none. -/
def Forced (s : RecvSide) : Prop := (∀ c ∈ s.calls, c.scanning = none) ∧ s.taken = []

theorem dispatchAll_frame (force : Bool) (s : RecvSide) : (s.dispatchAll force).calls = s.calls ∧
    (s.dispatchAll force).taken = s.taken := by
  unfold dispatchAll
  split
  · exact ⟨rfl, rfl⟩
  · exact ⟨rfl, rfl⟩

theorem Forced.doDispatchMsg {s : RecvSide} (h : s.Forced) (posting : Bool) :
    (s.doDispatchMsg force posting).Forced := by
  have hall : ∀ t : RecvSide, t.Forced → (t.dispatchAll force).Forced := by
    intro t ht
    obtain ⟨hcalls, htaken⟩ := dispatchAll_frame force t
    exact ⟨hcalls ▸ ht.1, htaken ▸ ht.2⟩
  obtain ⟨timer1, hs⟩ | ⟨_, hs⟩ | ⟨_, hs⟩ | ⟨_, msg, rest, _, hs⟩ :=
    doDispatchMsg_cases force posting s
  · rw [hs]
    exact h
  · rw [hs]
    exact hall { s with dispatching := false } h
  · rw [hs]
    exact hall s h
  · rw [hs]
    exact h

theorem Forced.setCall {s : RecvSide} (h : s.Forced) (i : Nat) {c : Call}
    (hc : c.scanning = none) : (s.setCall i c).Forced := by
  refine ⟨fun c' hc' => ?_, h.2⟩
  obtain hold | rfl := List.mem_or_eq_of_mem_set hc'
  · exact h.1 c' hold
  · exact hc

theorem Forced.push {s : RecvSide} (h : s.Forced) {c : Call} (hc : c.scanning = none) :
    ∀ c' ∈ s.calls ++ [c], c'.scanning = none := by
  intro c' hc'
  obtain hold | hnew := List.mem_append.mp hc'
  · exact h.1 c' hold
  · rw [List.mem_singleton.mp hnew]
    exact hc

theorem step_forced {s t : RecvSide} {a : Action} (hs : step true maxMsgNum s a = some t)
    (h : s.Forced) : t.Forced := by
  cases a with
  | start =>
    cases hs
    obtain ⟨_, _, hstart⟩ := startUp_eq s
    rw [hstart]
    exact h
  | recvHandler msgs unpackOk =>
    obtain ⟨_, rfl⟩ := step_recvHandler hs
    exact ⟨h.push rfl, h.2⟩
  | onUnpackError =>
    obtain ⟨_, rfl⟩ := step_onUnpackError hs
    exact h
  | recvError =>
    obtain ⟨_, rfl⟩ := step_recvError hs
    exact h
  | timer0Expires | timer1Expires | timer3Expires =>
    obtain ⟨_, _, rfl⟩ := Option.map_eq_some_iff.mp hs
    exact h
  | onTimer0 =>
    obtain ⟨_, _, rfl⟩ := Option.map_eq_some_iff.mp hs
    exact ⟨h.push rfl, h.2⟩
  | onTimer1 posting =>
    obtain ⟨timer1, _, rfl⟩ := Option.map_eq_some_iff.mp hs
    exact Forced.doDispatchMsg (s := { s with timer1 }) h posting
  | onTimer3 posting =>
    obtain ⟨timer3, _, rfl⟩ := Option.map_eq_some_iff.mp hs
    exact Forced.doDispatchMsg (s := { s with timer3 }) h posting
  | onMsg i handled =>
    obtain ⟨k, d, msg, hcall, _⟩ := step_onMsg hs
    cases h.1 _ (List.mem_of_getElem? hcall)
  | scanEnds i posting =>
    obtain ⟨k, d, hcall, _⟩ := step_scanEnds hs
    cases h.1 _ (List.mem_of_getElem? hcall)
  | splices i posting =>
    obtain ⟨_, rfl⟩ := step_splices hs
    have hspliced : (s.spliceTemp maxMsgNum posting).Forced :=
      spliceTemp_keeps h h (Forced.doDispatchMsg (s := s.moveTemp maxMsgNum) h posting)
    exact hspliced.setCall i rfl
  | callDispatches i posting =>
    obtain ⟨_, rfl⟩ := step_callDispatches hs
    exact (h.doDispatchMsg posting).setCall i rfl
  | finishes i =>
    obtain ⟨_, rfl⟩ := step_finishes hs
    have hless : ∀ c ∈ s.calls.eraseIdx i, c.scanning = none :=
      fun c hc => h.1 c (List.mem_of_mem_eraseIdx hc)
    obtain ⟨_, _, hfinish⟩ := finish_eq (s.leave i)
    rw [hfinish]
    exact ⟨hless, h.2⟩
  | onMsgHandle re =>
    obtain ⟨_, rfl⟩ := step_onMsgHandle hs
    exact h
  | handlerEnds i posting =>
    obtain ⟨re, _, rfl⟩ := Option.map_eq_some_iff.mp hs
    refine handlerEnds_keeps (P := Forced) (fun _ => ?_) (fun _ => h) (fun _ _ ht => ht)
    exact Forced.doDispatchMsg (s := { s with
      running := s.running.eraseIdx i, dispatching := false }) h posting
  | dispatch posting =>
    cases hs
    exact h.doDispatchMsg posting
  | suspendDispatchMsg | stopAllTimer | resetState | setOpen | setStopped | popRecv
    | clearBuffer =>
    cases hs
    exact h

theorem not_passes {s : RecvSide} (h : s.Forced) {a : Action} : ¬ Passes maxMsgNum s a := by
  cases a with
  | onMsg i handled =>
    cases handled with
    | true => exact id
    | false =>
      rintro ⟨_, hany⟩
      cases hcall : s.calls[i]? with
      | none =>
        rw [hcall] at hany
        cases hany
      | some c =>
        rw [hcall, Option.bind_some, h.1 c (List.mem_of_getElem? hcall)] at hany
        cases hany
  | _ => exact id

/-- **Always in order** with `FORCE_TO_USE_MSG_RECV_BUFFER`: there the messages
that have not been thrown away are handled as they have been unpacked, however
small the receive buffer is. -/
theorem dispatch_forced (maxMsgNum : Nat) (s : RecvSide)
    (h : Reach (step true maxMsgNum) Quiet start s) :
    (s.out ++ (s.inHand ++ (s.recvMsgBuffer ++ s.tempMsgBuffer))).Sublist s.unpacked ∧
      (s.thrown = [] →
        s.out ++ (s.inHand ++ (s.recvMsgBuffer ++ s.tempMsgBuffer)) = s.unpacked) := by
  have hforced : ∀ {s}, Reach (step true maxMsgNum) Quiet start s → s.Forced := fun h =>
    Reach.invariant (P := Forced) ⟨fun _ hc => (List.not_mem_nil hc).elim, rfl⟩
      (fun _ _ _ _ ih _ hs => step_forced hs ih) h
  have hkept : Reach (step true maxMsgNum) (fun s a => Quiet s a ∧ ¬ Passes maxMsgNum s a) start
      s := by
    induction h with
    | refl => exact .refl
    | tail hr hok hs ih =>
      refine ih.tail ⟨hok, fun hpasses => ?_⟩ hs
      exact not_passes (hforced hr) hpasses
  have hordered := reach_ordered hkept
  exact ⟨hordered, waiting_eq (reach_conserved h) hordered (hforced h).2⟩

/-- The first message is put back while the second one waits for room. -/
theorem dispatch_forced_back : ∃ s : RecvSide, s.recvMsgBuffer = [[1]] ∧ s.tempMsgBuffer = [[2]] ∧
    s.out ++ (s.inHand ++ (s.recvMsgBuffer ++ s.tempMsgBuffer)) = s.unpacked := by
  let acts : List Action := [.recvHandler [[1], [2]] true, .splices 0 false, .finishes 0,
    .onMsgHandle false, .handlerEnds 0 false, .timer0Expires, .onTimer0, .splices 0 false]
  have hrun : (exec (guarded (step true 1) Quiet) start acts).map
      (fun s => (s.recvMsgBuffer, s.tempMsgBuffer, s.thrown)) = some ([[1]], [[2]], []) := by
    decide +kernel
  obtain ⟨s, hs, hseen⟩ := Option.map_eq_some_iff.mp hrun
  simp only [Prod.mk.injEq] at hseen
  exact ⟨s, hseen.1, hseen.2.1, (dispatch_forced 1 s (Reach.of_exec_guarded acts hs)).2 hseen.2.2⟩

end AsioTcp.Wrapper.RecvSide
