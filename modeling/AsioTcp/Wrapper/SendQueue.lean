import AsioTcp.Wrapper.SendSide

/-!
# What becomes of the messages that are sent

In every run of the sending side no message is lost or doubled
(`send_conserved`). Their order is kept among those that are sent and among
those that are posted (`send_ordered`), and as a whole if none is sent while
posted ones wait (`send_in_turn`). One message is written at a time if sending
is not allowed again too early (`one_write`); otherwise there is no bound
(`writes_unbounded`). And as long as no write fails, none is forgotten
(`send_drained`).
-/

namespace AsioTcp.Wrapper.SendSide

open Transition

variable {maxMsgNum : Nat}

/-- Every run is one of the two queues. -/
theorem reach_queue {connected : Bool} {s : SendSide}
    (h : Reach (step maxMsgNum) always (start connected) s) :
    Reach OverflowQueue.step always OverflowQueue.empty s.queue :=
  h.simulate queue rfl (fun _ _ _ _ _ hs => step_queue (fun _ => trivial) (fun _ _ => trivial)
    (fun _ _ => trivial) (fun _ _ => trivial) (fun _ _ => ⟨trivial, trivial⟩) hs)

/-- **Nothing is lost or doubled**, in any order of calls, handlers, timers,
suspensions, closings and restarts: what has been taken has been handed to
`async_write`, waits in one of the buffers, or has been thrown away. -/
theorem send_conserved (maxMsgNum : Nat) (connected : Bool) (s : SendSide)
    (h : Reach (step maxMsgNum) always (start connected) s) :
    (s.sent ++ s.sendMsgBuffer ++ s.postMsgBuffer ++ s.thrown).Perm s.accepted :=
  OverflowQueue.conserved (reach_queue h)

/-- A buffer for one message, and a message that is thrown away. -/
theorem send_conserved_thrown : ∃ s : SendSide,
    s.sent = [[1]] ∧ s.postMsgBuffer = [[3]] ∧ s.thrown = [[2]] ∧
    (s.sent ++ s.sendMsgBuffer ++ s.postMsgBuffer ++ s.thrown).Perm s.accepted := by
  let acts : List Action := [.sendMsg [1] false, .sendMsg [2] false, .postMsg [3] false,
    .postRest 0, .popSend 1]
  have hrun : (exec (step 1) (start true) acts).map (fun s => (s.sent, s.postMsgBuffer, s.thrown)) =
      some ([[1]], [[3]], [[2]]) := by
    decide +kernel
  obtain ⟨s, hs, hseen⟩ := Option.map_eq_some_iff.mp hrun
  simp only [Prod.mk.injEq] at hseen
  exact ⟨s, hseen.1, hseen.2.1, hseen.2.2, send_conserved 1 true s (Reach.of_exec acts hs)⟩

/-! ## Order -/

/-- No message is taken out of a buffer but to be sent. -/
def NoPop : SendSide → Action → Prop := fun _ a => ¬ a.Pops

/-- **Each of the two ways keeps its order**: the messages of `send_msg` go out
in order, and so do those that had to wait in the post buffer. -/
theorem send_ordered (maxMsgNum : Nat) (connected : Bool) (s : SendSide)
    (h : Reach (step maxMsgNum) NoPop (start connected) s) :
    s.direct.Sublist (s.sent ++ s.sendMsgBuffer) ∧
      ∃ front, s.posted = front ++ s.postMsgBuffer ∧
        front.Sublist (s.sent ++ s.sendMsgBuffer) := by
  have hqueue : Reach OverflowQueue.step OverflowQueue.NoDrop OverflowQueue.empty s.queue :=
    h.simulate queue rfl (fun _ _ _ _ hok hs => step_queue (fun _ => trivial)
      (fun _ _ => trivial) (fun _ _ => trivial) (fun _ _ => trivial)
      (fun hpops => absurd hpops hok) hs)
  exact ⟨(OverflowQueue.ordered hqueue).direct, (OverflowQueue.ordered hqueue).posted⟩

instance (s : SendSide) (a : Action) : Decidable (NoPop s a) := by
  unfold NoPop
  cases a <;> unfold Action.Pops <;> infer_instance

/-- A message that is sent while another waits in the post buffer is put past it. -/
theorem send_ordered_past : ∃ s : SendSide,
    s.accepted = [[1], [2], [3], [4]] ∧ s.sent = [[1], [2], [4]] ∧
    s.direct.Sublist (s.sent ++ s.sendMsgBuffer) := by
  let acts : List Action := [.sendMsg [1] false, .sendMsg [2] false, .postMsg [3] false,
    .postRest 0, .sendHandler 0 false, .sendMsg [4] false, .sendHandler 0 false]
  have hrun : (exec (guarded (step 1) NoPop) (start true) acts).map
      (fun s => (s.accepted, s.sent)) = some ([[1], [2], [3], [4]], [[1], [2], [4]]) := by
    decide +kernel
  obtain ⟨s, hs, hseen⟩ := Option.map_eq_some_iff.mp hrun
  simp only [Prod.mk.injEq] at hseen
  exact ⟨s, hseen.1, hseen.2, (send_ordered 1 true s (Reach.of_exec_guarded acts hs)).1⟩

/-- Messages wait in the post buffer only while `posting` says so. -/
def Waiting (s : SendSide) : Prop := s.posting = false → s.postMsgBuffer = []

theorem Waiting.doSendMsg {s : SendSide} (h : s.Waiting) : s.doSendMsg.Waiting := by
  obtain ⟨_, _, _, _, _, hs⟩ := doSendMsg_eq s
  rw [hs]
  exact h

theorem step_waiting {s t : SendSide} {a : Action} (hreset : a = .resetState → s.postMsgBuffer = [])
    (hs : step maxMsgNum s a = some t) (h : s.Waiting) : t.Waiting := by
  have hsend : ∀ t : SendSide, t.Waiting → t.doSendMsg.Waiting := fun _ => Waiting.doSendMsg
  cases a with
  | sendMsg msg canOverflow =>
    rw [step_sendMsg hs]
    exact record_keeps (directSendMsg_keeps (hsend _ h) h canOverflow) fun _ _ ht => ht
  | postMsg msg canOverflow =>
    rw [step_postMsg hs]
    exact record_keeps (directPostMsg_keeps (hsend _ h) h h canOverflow) fun _ _ ht => ht
  | postRest i =>
    obtain ⟨msg, _, rfl⟩ := step_postRest hs
    refine recordPosted_keeps (P := Waiting) (doDirectPostMsg_keeps ?_ h) fun _ _ ht => ht
    unfold startPosting
    split
    · rename_i hposting
      intro hfalse
      cases hposting.symm.trans hfalse
    · intro hfalse
      cases hfalse
  | sendPending =>
    cases hs
    exact h.doSendMsg
  | resumed =>
    obtain ⟨_, rfl⟩ := step_resumed hs
    exact Waiting.doSendMsg (s := { s with resuming := s.resuming - 1 }) h
  | sendHandler i ec =>
    obtain ⟨_, _, rfl⟩ := Option.map_eq_some_iff.mp hs
    exact sendHandler_keeps (P := Waiting) (s := { s with writes := s.writes.eraseIdx i }) h
      (hsend _ h) (fun _ _ ht => ht) ec
  | onTimer =>
    obtain ⟨timer2, _, rfl⟩ := Option.map_eq_some_iff.mp hs
    unfold onTimer2 setPosting
    intro hfalse
    simpa using hfalse
  | timerExpires =>
    obtain ⟨timer2, _, rfl⟩ := Option.map_eq_some_iff.mp hs
    exact h
  | timerReturns i =>
    obtain ⟨again, _, hs⟩ := Option.bind_eq_some_iff.mp hs
    obtain ⟨timer2, _, rfl⟩ := Option.map_eq_some_iff.mp hs
    exact h
  | timerRestarts =>
    obtain ⟨timer2, _, rfl⟩ := Option.map_eq_some_iff.mp hs
    exact h
  | resetState =>
    cases hs
    exact fun _ => hreset rfl
  | popPost n =>
    cases hs
    intro hfalse
    simp only [h hfalse, List.drop_nil]
  | suspendSendMsg | setCloseState | setConnected | stopAllTimer | setStopped | popSend =>
    cases hs
    exact h

/-- No message is sent while another waits in the post buffer, none is thrown
away, and the state is not reset while one waits. -/
def InTurn (s : SendSide) : Action → Prop
  | .sendMsg _ _ => s.posting = false
  | .postMsg _ _ => s.posting = false
  | .popSend _ => False
  | .popPost _ => False
  | .resetState => s.postMsgBuffer = []
  | _ => True

instance (s : SendSide) (a : Action) : Decidable (InTurn s a) := by
  cases a <;> unfold InTurn <;> infer_instance

theorem reach_inTurn {connected : Bool} {s : SendSide}
    (h : Reach (step maxMsgNum) InTurn (start connected) s) :
    s.accepted = s.sent ++ (s.sendMsgBuffer ++ s.postMsgBuffer) := by
  have hwaiting : ∀ s, Reach (step maxMsgNum) InTurn (start connected) s → s.Waiting := by
    intro s h
    refine Reach.invariant (P := Waiting) (fun _ => rfl) (fun s a t _ ih hok hs => ?_) h
    exact step_waiting (fun ha => by subst ha; exact hok) hs ih
  have hstep : ∀ s a t, Reach (step maxMsgNum) InTurn (start connected) s → InTurn s a →
      step maxMsgNum s a = some t →
      Reach OverflowQueue.step OverflowQueue.InTurn s.queue t.queue := by
    intro s a t hr hok hs
    refine step_queue (fun _ => trivial) (fun _ _ => trivial) (fun _ _ => trivial)
      (fun hsends msg => ?_) (fun hpops => ?_) hs
    · cases a with
      | sendMsg | postMsg => exact hwaiting s hr hok
      | _ => exact hsends.elim
    · cases a with
      | popSend | popPost => exact hok.elim
      | _ => exact hpops.elim
  exact OverflowQueue.inTurn (h.simulate queue rfl hstep)

/-- **First in, first out**, if nothing is sent while `posting`: this is what
stopping to dispatch while messages are being posted is good for. -/
theorem send_in_turn (maxMsgNum : Nat) (connected : Bool) (s : SendSide)
    (h : Reach (step maxMsgNum) InTurn (start connected) s) :
    s.accepted = s.sent ++ (s.sendMsgBuffer ++ s.postMsgBuffer) :=
  reach_inTurn h

/-- A message is posted, moved by the timer, and written. -/
theorem send_in_turn_posted : ∃ s : SendSide,
    s.sent = [[1], [2], [3]] ∧ s.accepted = s.sent ++ (s.sendMsgBuffer ++ s.postMsgBuffer) := by
  let acts : List Action := [.postMsg [1] false, .postMsg [2] false, .postMsg [3] false,
    .postRest 0, .sendHandler 0 false, .timerExpires, .onTimer, .sendHandler 0 false]
  have hrun : (exec (guarded (step 1) InTurn) (start true) acts).map (·.sent) =
      some [[1], [2], [3]] := by
    decide +kernel
  obtain ⟨s, hs, hseen⟩ := Option.map_eq_some_iff.mp hrun
  exact ⟨s, hseen, send_in_turn 1 true s (Reach.of_exec_guarded acts hs)⟩

/-! ## One write at a time -/

/-- At most one `async_write` has not been answered; it reads `last_send_msg`,
and `sending` tells of it wherever sending is possible. -/
structure OneWrite (s : SendSide) : Prop where
  writes : s.writes = [] ∨ s.writes = [s.lastSendMsg]
  known : s.Open → s.writes ≠ [] → s.sending = true
  sending : s.sending = true → s.writes ≠ []

theorem OneWrite.flags {s t : SendSide} (h : s.OneWrite) (hwrites : t.writes = s.writes)
    (hlast : t.lastSendMsg = s.lastSendMsg) (hsending : t.sending = s.sending)
    (hopen : (t.Open → s.Open) ∨ s.writes = [] ∨ s.sending = true) : t.OneWrite := by
  refine ⟨?_, ?_, ?_⟩
  · rw [hwrites, hlast]
    exact h.writes
  · rw [hwrites, hsending]
    intro ht hne
    obtain hopen | hnone | hsending := hopen
    · exact h.known (hopen ht) hne
    · exact absurd hnone hne
    · exact hsending
  · rw [hwrites, hsending]
    exact h.sending

theorem OneWrite.doSendMsg {s : SendSide} (h : s.OneWrite) : s.doSendMsg.OneWrite := by
  obtain ⟨hclosed, hs⟩ | ⟨_, _, hs⟩ | ⟨hopen, hidle, msg, rest, _, hs⟩ := doSendMsg_cases s
  · rw [hs]
    exact ⟨h.writes, fun ht => absurd ht hclosed, fun hfalse => by cases hfalse⟩
  · rw [hs]
    exact h
  · have hnone : s.writes = [] := by
      by_cases hne : s.writes = []
      · exact hne
      · cases hidle.symm.trans (h.known hopen hne)
    rw [hs]
    refine ⟨.inr ?_, fun _ _ => rfl, fun _ => ?_⟩
    · simp only [hnone, List.nil_append]
    · simp

/-- Once the answer has come, no other write is out. -/
theorem OneWrite.sendHandler {s : SendSide} (h : s.OneWrite) {i : Nat} {msg : Msg}
    (hi : s.writes[i]? = some msg) (ec : Bool) :
    ({ s with writes := s.writes.eraseIdx i }.sendHandler ec).OneWrite := by
  have hnone : s.writes.eraseIdx i = [] := by
    obtain hnil | hone := h.writes
    · rw [hnil] at hi
      cases hi
    · rw [hone] at hi ⊢
      cases i with
      | zero => rfl
      | succ i => cases hi
  have hidle : { s with writes := s.writes.eraseIdx i, sending := false }.OneWrite :=
    ⟨.inl hnone, fun _ hne => absurd hnone hne, fun hfalse => by cases hfalse⟩
  refine (sendHandler_keeps (P := fun t => t.OneWrite ∧ (t.sending = false → t.writes = []))
    ⟨hidle, fun _ => hnone⟩ ⟨hidle.doSendMsg, fun hsending => ?_⟩ (fun t hsending ht => ?_) ec).1
  · obtain ⟨_, hs⟩ | ⟨_, _, hs⟩ | ⟨_, _, _, _, _, hs⟩ :=
      doSendMsg_cases { s with writes := s.writes.eraseIdx i, sending := false }
    · rw [hs]
      exact hnone
    · rw [hs]
      exact hnone
    · rw [hs] at hsending
      cases hsending
  · have hwrites := ht.2 hsending
    exact ⟨⟨.inl hwrites, fun _ hne => absurd hwrites hne, ht.1.sending⟩, ht.2⟩

/-- The write that has not been answered, if there is one, is known. -/
def Known (s : SendSide) : Prop := s.writes = [] ∨ s.sending = true

/-- Sending is not allowed again before the write that was out when it was
forbidden has been answered. -/
def Careful (s : SendSide) : Action → Prop
  | .suspendSendMsg suspend => suspend = true ∨ s.Known
  | .setConnected connected => connected = false ∨ s.Known
  | .setCloseState closeState => closeState ≠ .normal ∨ s.Known
  | .setStopped stopped => stopped = true ∨ s.Known
  | .resetState => s.writes = [] ∨ s.closeState ≠ .normal
  | _ => True

instance (s : SendSide) (a : Action) : Decidable (Careful s a) := by
  cases a <;> unfold Careful <;> unfold Known <;> infer_instance

theorem step_oneWrite {s t : SendSide} {a : Action} (hok : Careful s a)
    (hs : step maxMsgNum s a = some t) (h : s.OneWrite) : t.OneWrite := by
  have hsend : ∀ t : SendSide, t.OneWrite → t.doSendMsg.OneWrite := fun _ => OneWrite.doSendMsg
  have hsame : ∀ t : SendSide, t.writes = s.writes → t.lastSendMsg = s.lastSendMsg →
      t.sending = s.sending → t.isSendAllowed = s.isSendAllowed → t.stopped = s.stopped →
      t.OneWrite := by
    intro t hwrites hlast hsending hallowed hstopped
    refine h.flags hwrites hlast hsending (.inl fun ht => ?_)
    exact ⟨hallowed ▸ ht.1, hstopped ▸ ht.2⟩
  cases a with
  | sendMsg msg canOverflow =>
    rw [step_sendMsg hs]
    exact record_keeps (directSendMsg_keeps (hsend _ (hsame _ rfl rfl rfl rfl rfl)) h canOverflow)
      fun _ _ ht => ht.flags rfl rfl rfl (.inl id)
  | postMsg msg canOverflow =>
    rw [step_postMsg hs]
    exact record_keeps (directPostMsg_keeps (hsend _ (hsame _ rfl rfl rfl rfl rfl)) h
      (hsame _ rfl rfl rfl rfl rfl) canOverflow) fun _ _ ht => ht.flags rfl rfl rfl (.inl id)
  | postRest i =>
    obtain ⟨msg, _, rfl⟩ := step_postRest hs
    refine recordPosted_keeps (P := OneWrite)
      (doDirectPostMsg_keeps ?_ (hsame _ rfl rfl rfl rfl rfl))
      fun _ _ ht => ht.flags rfl rfl rfl (.inl id)
    unfold startPosting
    split
    · exact hsame _ rfl rfl rfl rfl rfl
    · exact hsame _ rfl rfl rfl rfl rfl
  | sendPending =>
    cases hs
    exact h.doSendMsg
  | resumed =>
    obtain ⟨_, rfl⟩ := step_resumed hs
    exact hsend _ (hsame _ rfl rfl rfl rfl rfl)
  | sendHandler i ec =>
    obtain ⟨msg, hi, rfl⟩ := Option.map_eq_some_iff.mp hs
    exact h.sendHandler hi ec
  | onTimer =>
    obtain ⟨timer2, _, rfl⟩ := Option.map_eq_some_iff.mp hs
    refine onTimer2_keeps (hsend _ (hsame _ rfl rfl rfl rfl rfl)) (hsame _ rfl rfl rfl rfl rfl)
      (fun t ht => ?_)
    exact ht.flags rfl rfl rfl (.inl id)
  | timerExpires =>
    obtain ⟨timer2, _, rfl⟩ := Option.map_eq_some_iff.mp hs
    exact hsame _ rfl rfl rfl rfl rfl
  | timerReturns i =>
    obtain ⟨again, _, hs⟩ := Option.bind_eq_some_iff.mp hs
    obtain ⟨timer2, _, rfl⟩ := Option.map_eq_some_iff.mp hs
    exact hsame _ rfl rfl rfl rfl rfl
  | timerRestarts =>
    obtain ⟨timer2, _, rfl⟩ := Option.map_eq_some_iff.mp hs
    exact hsame _ rfl rfl rfl rfl rfl
  | suspendSendMsg suspend =>
    cases hs
    refine h.flags rfl rfl rfl (hok.imp (fun hsuspend ht => ?_) id)
    subst hsuspend
    exact absurd ht.1 (by simp [isSendAllowed])
  | setConnected connected =>
    cases hs
    refine h.flags rfl rfl rfl (hok.imp (fun hconnected ht => ?_) id)
    subst hconnected
    exact absurd ht.1 (by simp [isSendAllowed])
  | setCloseState closeState =>
    cases hs
    refine h.flags rfl rfl rfl (hok.imp (fun hclose ht => ?_) id)
    exact absurd ht.1 (by simp [isSendAllowed, hclose])
  | setStopped stopped =>
    cases hs
    refine h.flags rfl rfl rfl (hok.imp (fun hstopped ht => ?_) id)
    subst hstopped
    cases ht.2
  | resetState =>
    cases hs
    refine ⟨h.writes, fun ht hne => ?_, fun hfalse => by cases hfalse⟩
    obtain hnone | hclose := hok
    · exact absurd hnone hne
    · exact absurd ht.1 (by simp [isSendAllowed, SendSide.resetState, hclose])
  | stopAllTimer | popSend | popPost =>
    cases hs
    exact hsame _ rfl rfl rfl rfl rfl

/-- **One write at a time**, in every run in which sending is not allowed again
before the write that was out has been answered; until then the bytes it reads
stay in `last_send_msg`. -/
theorem one_write (maxMsgNum : Nat) (connected : Bool) (s : SendSide)
    (h : Reach (step maxMsgNum) Careful (start connected) s) :
    s.writes = [] ∨ (s.writes = [s.lastSendMsg] ∧ (s.Open → s.sending = true)) := by
  have hall : s.OneWrite := by
    refine Reach.invariant (P := OneWrite) ?_ (fun s a t _ ih hok hs => ?_) h
    · exact ⟨.inl rfl, fun _ hne => absurd rfl hne, fun hfalse => by cases hfalse⟩
    · exact step_oneWrite hok hs ih
  obtain hnone | hone := hall.writes
  · exact .inl hnone
  · exact .inr ⟨hone, fun hopen => hall.known hopen (by rw [hone]; simp)⟩

/-- Sending is suspended and resumed while a write is out, with no call between. -/
theorem one_write_suspended : ∃ s : SendSide,
    s.writes = [[1]] ∧ s.sendMsgBuffer = [[2]] ∧
    (s.writes = [] ∨ (s.writes = [s.lastSendMsg] ∧ (s.Open → s.sending = true))) := by
  let acts : List Action := [.sendMsg [1] false, .suspendSendMsg true, .suspendSendMsg false,
    .resumed, .sendMsg [2] false]
  have hrun : (exec (guarded (step 1024) Careful) (start true) acts).map
      (fun s => (s.writes, s.sendMsgBuffer)) = some ([[1]], [[2]]) := by
    decide +kernel
  obtain ⟨s, hs, hseen⟩ := Option.map_eq_some_iff.mp hrun
  simp only [Prod.mk.injEq] at hseen
  exact ⟨s, hseen.1, hseen.2, one_write 1024 true s (Reach.of_exec_guarded acts hs)⟩

/-- Calls of `suspend_send_msg`, of `send_msg()` and of `send_msg` with a message,
and nothing else -/
def OnlySends : SendSide → Action → Prop
  | _, .suspendSendMsg _ => True
  | _, .resumed => True
  | _, .sendPending => True
  | _, .sendMsg _ _ => True
  | _, _ => False

/-- Suspend sending, ask for what is pending, resume, and send: `do_send_msg`
forgets the write that is out, and the next one is started beside it. -/
theorem beside (maxMsgNum : Nat) {s : SendSide} (hopen : s.Open)
    (hempty : s.sendMsgBuffer = []) {msg : Msg} (hmsg : msg ≠ []) :
    ∃ t, Reach (step maxMsgNum) OnlySends s t ∧ t.Open ∧ t.sendMsgBuffer = [] ∧
      t.writes = s.writes ++ [msg] ∧ t.lastSendMsg = msg ∧ t.resuming = s.resuming := by
  let suspended := { s with suspendSendMsg := true, resuming := s.resuming + 0 }
  let forgotten := { suspended with sending := false }
  let allowed := { forgotten with suspendSendMsg := false, resuming := forgotten.resuming + 1 }
  let resumed := { allowed with resuming := allowed.resuming - 1 }
  have hclosed : ¬ suspended.Open := fun h => absurd h.1 (by simp [suspended, isSendAllowed])
  have hforget : step maxMsgNum suspended .sendPending = some forgotten :=
    congrArg some (doSendMsg_closed hclosed)
  have hagain : resumed.Open := by
    obtain ⟨hallowed, hstopped⟩ := hopen
    unfold isSendAllowed at hallowed
    simp only [Bool.and_eq_true] at hallowed
    refine ⟨?_, hstopped⟩
    simp only [isSendAllowed, resumed, allowed, forgotten, suspended, hallowed.1, hallowed.2.1,
      Bool.not_false, Bool.and_self]
  have hresume : step maxMsgNum allowed .resumed = some resumed := by
    have hpos : 0 < allowed.resuming := Nat.succ_pos _
    simp only [step, if_pos hpos]
    exact congrArg some (doSendMsg_nothing hagain hempty)
  have hbuffer : (resumed.push msg).sendMsgBuffer = msg :: [] := by
    change s.sendMsgBuffer ++ [msg] = [msg]
    rw [hempty, List.nil_append]
  have hsend : step maxMsgNum resumed (.sendMsg msg true) =
      some ((resumed.push msg).doSendMsg.record true msg) := by
    have hnil : msg.isEmpty = false := by simpa using hmsg
    simp only [step, directSendMsg, doDirectSendMsg, true_or, if_true, hnil, Bool.false_eq_true,
      if_false]
  rw [doSendMsg_writes (s := resumed.push msg) hagain rfl hbuffer] at hsend
  refine ⟨_, (((((Reach.refl.tail (a := .suspendSendMsg true) trivial rfl).tail
    (a := .sendPending) trivial hforget).tail (a := .suspendSendMsg false) trivial rfl).tail
    (a := .resumed) trivial hresume).tail (a := .sendMsg msg true) trivial hsend), ?_⟩
  exact record_keeps (P := fun t => t.Open ∧ t.sendMsgBuffer = [] ∧ t.writes = s.writes ++ [msg] ∧
    t.lastSendMsg = msg ∧ t.resuming = s.resuming) ⟨hagain, rfl, rfl, rfl, rfl⟩ fun _ _ ht => ht

/-- **Otherwise there is no bound**: whatever the messages are, calls of
`suspend_send_msg` and `send_msg` alone can bring all of them under way at once,
while `last_send_msg`, from which each of them is read, holds the last one only.
All the calls have returned by then. -/
theorem writes_unbounded (maxMsgNum : Nat) (msgs : List Msg) (hmsgs : ∀ msg ∈ msgs, msg ≠ []) :
    ∃ s, Reach (step maxMsgNum) OnlySends (start true) s ∧ s.writes = msgs ∧
      s.lastSendMsg = msgs.getLastD [] ∧ s.resuming = 0 := by
  have hall : ∀ (before : List Msg) (s : SendSide), s.Open → s.sendMsgBuffer = [] →
      s.writes = before → s.lastSendMsg = before.getLastD [] → s.resuming = 0 →
      ∃ t, Reach (step maxMsgNum) OnlySends s t ∧ t.writes = before ++ msgs ∧
        t.lastSendMsg = (before ++ msgs).getLastD [] ∧ t.resuming = 0 := by
    induction msgs with
    | nil =>
      intro before s _ _ hwrites hlast hresuming
      rw [List.append_nil]
      exact ⟨s, .refl, hwrites, hlast, hresuming⟩
    | cons msg msgs ih =>
      intro before s hopen hempty hwrites _ hresuming
      obtain ⟨hmsg, hrest⟩ := List.forall_mem_cons.mp hmsgs
      obtain ⟨t, ht, htopen, htempty, htwrites, htlast, htresuming⟩ :=
        beside maxMsgNum hopen hempty hmsg
      obtain ⟨u, hu, huwrites, hulast, huresuming⟩ := ih hrest (before ++ [msg]) t htopen htempty
        (by rw [htwrites, hwrites]) (by rw [htlast, List.getLastD_concat])
        (htresuming.trans hresuming)
      rw [List.append_assoc] at huwrites hulast
      exact ⟨u, ht.trans hu, huwrites, hulast, huresuming⟩
  exact hall [] (start true) ⟨rfl, rfl⟩ rfl rfl rfl rfl

/-- Three at once. -/
theorem writes_unbounded_three : ∃ s, Reach (step 1024) OnlySends (start true) s ∧
    s.writes = [[1], [2], [3]] ∧ s.lastSendMsg = [3] ∧ s.resuming = 0 :=
  writes_unbounded 1024 [[1], [2], [3]] (by decide)

/-! ## Nothing is forgotten -/

/-- Where sending is possible there is nothing to send, or a write is out, or a
call of `send_msg()` is about to come. -/
def Busy (s : SendSide) : Prop :=
  s.Open → s.sendMsgBuffer = [] ∨ s.sending = true ∨ 0 < s.resuming

/-- While messages wait in the post buffer, timer 2 will come back to them. -/
structure Ticking (s : SendSide) : Prop where
  waiting : s.Waiting
  timer : s.posting = true →
    0 < s.timer2.pending + s.timer2.expired + s.timer2.restarting ∨ true ∈ s.ticks
  status : s.timer2.status = .ok

theorem doSendMsg_busy (s : SendSide) : s.doSendMsg.Busy := by
  obtain ⟨hclosed, hs⟩ | ⟨_, hnone, hs⟩ | ⟨_, _, _, _, _, hs⟩ := doSendMsg_cases s
  · rw [hs]
    exact fun hopen => absurd hopen hclosed
  · rw [hs]
    exact fun _ => hnone.symm.imp id .inl
  · rw [hs]
    exact fun _ => .inr (.inl rfl)

theorem doSendMsg_timer2 (s : SendSide) : s.doSendMsg.timer2 = s.timer2 := by
  obtain ⟨_, _, _, _, _, hs⟩ := doSendMsg_eq s
  rw [hs]

theorem doSendMsg_sending {s : SendSide} (h : s.sending = true → s.writes ≠ []) :
    s.doSendMsg.sending = true → s.doSendMsg.writes ≠ [] := by
  obtain ⟨_, hs⟩ | ⟨_, _, hs⟩ | ⟨_, _, _, _, _, hs⟩ := doSendMsg_cases s
  · rw [hs]
    intro hfalse
    cases hfalse
  · rw [hs]
    exact h
  · rw [hs]
    simp

/-- No write fails and nothing is closed or stopped. -/
def Flows : SendSide → Action → Prop
  | _, .sendHandler _ ec => ec = false
  | _, .setCloseState _ => False
  | _, .stopAllTimer => False
  | _, .resetState => False
  | _, .setStopped _ => False
  | _, _ => True

instance (s : SendSide) (a : Action) : Decidable (Flows s a) := by
  cases a <;> unfold Flows <;> infer_instance

theorem step_busy {s t : SendSide} {a : Action} (hok : Flows s a)
    (hs : step maxMsgNum s a = some t) (h : s.Busy) : t.Busy := by
  cases a with
  | sendMsg msg canOverflow =>
    rw [step_sendMsg hs]
    exact record_keeps (directSendMsg_keeps (doSendMsg_busy _) h canOverflow) fun _ _ ht => ht
  | postMsg msg canOverflow =>
    rw [step_postMsg hs]
    exact record_keeps (directPostMsg_keeps (doSendMsg_busy _) h h canOverflow) fun _ _ ht => ht
  | postRest i =>
    obtain ⟨msg, _, rfl⟩ := step_postRest hs
    refine recordPosted_keeps (P := Busy) (doDirectPostMsg_keeps ?_ h) fun _ _ ht => ht
    unfold startPosting
    split
    · exact h
    · exact h
  | sendPending =>
    cases hs
    exact doSendMsg_busy s
  | resumed =>
    obtain ⟨_, rfl⟩ := step_resumed hs
    exact doSendMsg_busy _
  | sendHandler i ec =>
    obtain ⟨_, _, rfl⟩ := Option.map_eq_some_iff.mp hs
    cases hok
    exact clearLastSendMsg_keeps (P := Busy) (fun _ _ ht => ht) (doSendMsg_busy _)
  | onTimer =>
    obtain ⟨timer2, _, rfl⟩ := Option.map_eq_some_iff.mp hs
    exact onTimer2_keeps (doSendMsg_busy _) h (fun _ ht => ht)
  | suspendSendMsg suspend =>
    cases hs
    intro ht
    cases suspend with
    | true => exact absurd ht.1 (by simp [isSendAllowed])
    | false => exact .inr (.inr (Nat.succ_pos _))
  | setConnected connected =>
    cases hs
    intro ht
    cases connected with
    | true => exact .inr (.inr (Nat.succ_pos _))
    | false => exact absurd ht.1 (by simp [isSendAllowed])
  | popSend n =>
    cases hs
    exact fun hopen => (h hopen).imp (fun hempty => by simp only [hempty, List.drop_nil]) id
  | timerExpires =>
    obtain ⟨timer2, _, rfl⟩ := Option.map_eq_some_iff.mp hs
    exact h
  | timerReturns i =>
    obtain ⟨again, _, hs⟩ := Option.bind_eq_some_iff.mp hs
    obtain ⟨timer2, _, rfl⟩ := Option.map_eq_some_iff.mp hs
    exact h
  | timerRestarts =>
    obtain ⟨timer2, _, rfl⟩ := Option.map_eq_some_iff.mp hs
    exact h
  | popPost =>
    cases hs
    exact h
  | setCloseState | stopAllTimer | resetState | setStopped => exact hok.elim

theorem Ticking.same {s t : SendSide} (h : s.Ticking) (hpost : t.postMsgBuffer = s.postMsgBuffer)
    (hposting : t.posting = s.posting) (htimer : t.timer2 = s.timer2) (hticks : t.ticks = s.ticks) :
    t.Ticking := by
  obtain ⟨hwaiting, hlive, hstatus⟩ := h
  refine ⟨?_, ?_, ?_⟩
  · rw [Waiting, hposting, hpost]
    exact hwaiting
  · rw [hposting, htimer, hticks]
    exact hlive
  · rw [htimer]
    exact hstatus

theorem Ticking.doSendMsg {s : SendSide} (h : s.Ticking) : s.doSendMsg.Ticking := by
  obtain ⟨_, _, _, _, _, hs⟩ := doSendMsg_eq s
  rw [hs]
  exact h.same rfl rfl rfl rfl

theorem Ticking.startPosting {s : SendSide} (h : s.Ticking) (msg : Msg) :
    (s.post msg).startPosting.Ticking := by
  unfold SendSide.startPosting
  split
  · rename_i hposting
    refine ⟨fun hfalse => ?_, h.timer, h.status⟩
    cases hposting.symm.trans hfalse
  · refine ⟨fun hfalse => ?_, fun _ => .inl ?_, rfl⟩
    · cases hfalse
    · simp only [TimerInfo.setTimer, TimerInfo.startTimer]
      omega

theorem Ticking.setPosting {s : SendSide} (hstatus : s.timer2.status = .ok) :
    s.setPosting.Ticking := by
  refine ⟨?_, ?_, hstatus⟩
  · unfold Waiting SendSide.setPosting
    intro hfalse
    simpa using hfalse
  · intro hposting
    refine .inr (List.mem_append_right s.ticks ?_)
    simp only [SendSide.setPosting] at hposting
    rw [hposting]
    exact List.mem_singleton_self true

/-- A handler that returns: it waits again if messages are left. -/
theorem Ticking.returns {s : SendSide} (h : s.Ticking) {i : Nat} {again : Bool}
    {timer2 : TimerInfo} (hi : s.ticks[i]? = some again)
    (htests : s.timer2.handlerTests again = some timer2) :
    { s with timer2, ticks := s.ticks.eraseIdx i }.Ticking := by
  obtain ⟨_, ⟨_, hstatus, rfl⟩ | ⟨hnot, rfl⟩⟩ := TimerInfo.handlerTests_eq_some htests
  · refine ⟨h.waiting, fun _ => .inl ?_, hstatus⟩
    simp only
    omega
  · refine ⟨h.waiting, fun hposting => (h.timer hposting).imp id fun htrue => ?_, h.status⟩
    obtain ⟨j, hj⟩ := List.mem_iff_getElem?.mp htrue
    have hne : j ≠ i := by
      intro heq
      subst heq
      cases hi.symm.trans hj
      exact hnot ⟨rfl, h.status⟩
    exact List.mem_eraseIdx_iff_getElem?.mpr ⟨j, hne, hj⟩

theorem step_ticking {s t : SendSide} {a : Action} (hok : Flows s a)
    (hs : step maxMsgNum s a = some t) (h : s.Ticking) : t.Ticking := by
  have hsame : ∀ t : SendSide, t.postMsgBuffer = s.postMsgBuffer → t.posting = s.posting →
      t.timer2 = s.timer2 → t.ticks = s.ticks → t.Ticking := fun _ => h.same
  cases a with
  | sendMsg msg canOverflow =>
    rw [step_sendMsg hs]
    exact record_keeps
      (directSendMsg_keeps (hsame (s.push msg) rfl rfl rfl rfl).doSendMsg h canOverflow)
      fun _ _ ht => ht.same rfl rfl rfl rfl
  | postMsg msg canOverflow =>
    rw [step_postMsg hs]
    exact record_keeps (directPostMsg_keeps (hsame (s.push msg) rfl rfl rfl rfl).doSendMsg h
      (hsame _ rfl rfl rfl rfl) canOverflow) fun _ _ ht => ht.same rfl rfl rfl rfl
  | postRest i =>
    obtain ⟨msg, _, rfl⟩ := step_postRest hs
    have hrest := hsame { s with inPost := s.inPost.eraseIdx i } rfl rfl rfl rfl
    exact recordPosted_keeps (doDirectPostMsg_keeps (hrest.startPosting msg) hrest)
      fun _ _ ht => ht.same rfl rfl rfl rfl
  | sendPending =>
    cases hs
    exact h.doSendMsg
  | resumed =>
    obtain ⟨_, rfl⟩ := step_resumed hs
    exact (hsame { s with resuming := s.resuming - 1 } rfl rfl rfl rfl).doSendMsg
  | sendHandler i ec =>
    obtain ⟨_, _, rfl⟩ := Option.map_eq_some_iff.mp hs
    have hidle := hsame { s with writes := s.writes.eraseIdx i, sending := false } rfl rfl rfl rfl
    exact sendHandler_keeps (P := Ticking) (s := { s with writes := s.writes.eraseIdx i }) hidle
      hidle.doSendMsg (fun _ _ ht => ht.same rfl rfl rfl rfl) ec
  | onTimer =>
    obtain ⟨timer2, hbegins, rfl⟩ := Option.map_eq_some_iff.mp hs
    obtain ⟨_, rfl⟩ := TimerInfo.handlerBegins_eq_some hbegins
    refine onTimer2_keeps (P := fun t => t.timer2.status = .ok) ?_ h.status
      (fun _ => Ticking.setPosting)
    rw [doSendMsg_timer2]
    exact h.status
  | timerExpires =>
    obtain ⟨timer2, hexpire, rfl⟩ := Option.map_eq_some_iff.mp hs
    obtain ⟨_, rfl⟩ := TimerInfo.expire_eq_some hexpire
    refine ⟨h.waiting, fun hposting => (h.timer hposting).imp (fun hlive => ?_) id, h.status⟩
    simp only
    omega
  | timerReturns i =>
    obtain ⟨again, hi, hs⟩ := Option.bind_eq_some_iff.mp hs
    obtain ⟨timer2, htests, rfl⟩ := Option.map_eq_some_iff.mp hs
    exact h.returns hi htests
  | timerRestarts =>
    obtain ⟨timer2, hrestarts, rfl⟩ := Option.map_eq_some_iff.mp hs
    obtain ⟨_, rfl⟩ := TimerInfo.handlerRestarts_eq_some hrestarts
    refine ⟨h.waiting, fun _ => .inl ?_, h.status⟩
    simp only [TimerInfo.startTimer]
    omega
  | popPost n =>
    cases hs
    refine ⟨fun hfalse => ?_, h.timer, h.status⟩
    simp only [h.waiting hfalse, List.drop_nil]
  | suspendSendMsg | setConnected | popSend =>
    cases hs
    exact hsame _ rfl rfl rfl rfl
  | setCloseState | stopAllTimer | resetState | setStopped => exact hok.elim

/-- While `sending`, a write is out. -/
def Sending (s : SendSide) : Prop := s.sending = true → s.writes ≠ []

theorem step_sending {s t : SendSide} {a : Action} (hs : step maxMsgNum s a = some t)
    (h : s.Sending) : t.Sending := by
  have hsend : ∀ t : SendSide, t.Sending → t.doSendMsg.Sending := fun _ => doSendMsg_sending
  cases a with
  | sendMsg msg canOverflow =>
    rw [step_sendMsg hs]
    exact record_keeps (directSendMsg_keeps (hsend (s.push msg) h) h canOverflow) fun _ _ ht => ht
  | postMsg msg canOverflow =>
    rw [step_postMsg hs]
    exact record_keeps (directPostMsg_keeps (hsend (s.push msg) h) h h canOverflow)
      fun _ _ ht => ht
  | postRest i =>
    obtain ⟨msg, _, rfl⟩ := step_postRest hs
    refine recordPosted_keeps (P := Sending) (doDirectPostMsg_keeps ?_ h) fun _ _ ht => ht
    unfold startPosting
    split
    · exact h
    · exact h
  | sendPending =>
    cases hs
    exact hsend s h
  | resumed =>
    obtain ⟨_, rfl⟩ := step_resumed hs
    exact hsend { s with resuming := s.resuming - 1 } h
  | sendHandler i ec =>
    obtain ⟨_, _, rfl⟩ := Option.map_eq_some_iff.mp hs
    have hidle : { s with writes := s.writes.eraseIdx i, sending := false }.Sending :=
      fun hfalse => by cases hfalse
    exact sendHandler_keeps (P := Sending) (s := { s with writes := s.writes.eraseIdx i }) hidle
      (hsend _ hidle) (fun _ _ ht => ht) ec
  | onTimer =>
    obtain ⟨timer2, _, rfl⟩ := Option.map_eq_some_iff.mp hs
    exact onTimer2_keeps (hsend _ h) h (fun _ ht => ht)
  | timerExpires =>
    obtain ⟨timer2, _, rfl⟩ := Option.map_eq_some_iff.mp hs
    exact h
  | timerReturns i =>
    obtain ⟨again, _, hs⟩ := Option.bind_eq_some_iff.mp hs
    obtain ⟨timer2, _, rfl⟩ := Option.map_eq_some_iff.mp hs
    exact h
  | timerRestarts =>
    obtain ⟨timer2, _, rfl⟩ := Option.map_eq_some_iff.mp hs
    exact h
  | resetState =>
    cases hs
    intro hfalse
    cases hfalse
  | suspendSendMsg | setConnected | setCloseState | stopAllTimer | setStopped | popSend
    | popPost =>
    cases hs
    exact h

/-- Nothing is under way but calls that have not taken their locks. -/
structure Idle (s : SendSide) : Prop where
  writes : s.writes = []
  resuming : s.resuming = 0
  pending : s.timer2.pending = 0
  expired : s.timer2.expired = 0
  ticks : s.ticks = []
  restarting : s.timer2.restarting = 0

/-- **Nothing is forgotten** as long as no write fails and nothing is closed or
stopped: where sending is possible and nothing is under way, both buffers are
empty, and all that has been taken and not thrown away has been sent. -/
theorem send_drained (maxMsgNum : Nat) (connected : Bool) (s : SendSide)
    (h : Reach (step maxMsgNum) Flows (start connected) s) (hopen : s.Open) (hidle : s.Idle) :
    s.sendMsgBuffer = [] ∧ s.postMsgBuffer = [] ∧ (s.sent ++ s.thrown).Perm s.accepted := by
  have hall : s.Busy ∧ s.Ticking ∧ s.Sending := by
    refine Reach.invariant (P := fun s => s.Busy ∧ s.Ticking ∧ s.Sending) ?_
      (fun s a t _ ih hok hs => ?_) h
    · refine ⟨fun _ => .inl rfl, ⟨fun _ => rfl, fun hfalse => ?_, rfl⟩, fun hfalse => ?_⟩
      · cases hfalse
      · cases hfalse
    · exact ⟨step_busy hok hs ih.1, step_ticking hok hs ih.2.1, step_sending hs ih.2.2⟩
  obtain ⟨hbusy, hticking, hsending⟩ := hall
  have hsend : s.sendMsgBuffer = [] := by
    obtain hempty | hout | hresuming := hbusy hopen
    · exact hempty
    · exact absurd hidle.writes (hsending hout)
    · have := hidle.resuming
      omega
  have hpost : s.postMsgBuffer = [] := by
    cases hposting : s.posting with
    | false => exact hticking.waiting hposting
    | true =>
      obtain hlive | htick := hticking.timer hposting
      · have hpending := hidle.pending
        have hexpired := hidle.expired
        have hrestarting := hidle.restarting
        omega
      · rw [hidle.ticks] at htick
        cases htick
  have hconserved : (s.sent ++ s.sendMsgBuffer ++ s.postMsgBuffer ++ s.thrown).Perm s.accepted :=
    OverflowQueue.conserved (reach_queue (h.mono fun _ _ _ => trivial))
  rw [hsend, hpost, List.append_nil, List.append_nil] at hconserved
  exact ⟨hsend, hpost, hconserved⟩

/-- Two messages, of which the second is posted while sending is suspended. -/
theorem send_drained_two : ∃ s : SendSide, s.sent = [[1], [2]] ∧ s.accepted = [[1], [2]] ∧
    s.sendMsgBuffer = [] ∧ s.postMsgBuffer = [] ∧ (s.sent ++ s.thrown).Perm s.accepted := by
  let acts : List Action := [.suspendSendMsg true, .sendMsg [1] false, .postMsg [2] false,
    .postRest 0, .suspendSendMsg false, .resumed, .timerExpires, .onTimer, .timerReturns 0,
    .sendHandler 0 false, .sendHandler 0 false]
  have hrun : (exec (guarded (step 1) Flows) (start true) acts).map (fun s => (s.sent, s.accepted,
      decide ((s.isSendAllowed = true ∧ s.stopped = false) ∧ s.writes = [] ∧ s.resuming = 0 ∧
        s.timer2.pending = 0 ∧ s.timer2.expired = 0 ∧ s.ticks = [] ∧
        s.timer2.restarting = 0))) =
      some ([[1], [2]], [[1], [2]], true) := by
    decide +kernel
  obtain ⟨s, hs, hseen⟩ := Option.map_eq_some_iff.mp hrun
  simp only [Prod.mk.injEq, decide_eq_true_eq] at hseen
  obtain ⟨hsent, haccepted, hopen, hwrites, hresuming, hpending, hexpired, hticks, hrestarting⟩ :=
    hseen
  exact ⟨s, hsent, haccepted, send_drained 1 true s (Reach.of_exec_guarded acts hs) hopen
    ⟨hwrites, hresuming, hpending, hexpired, hticks, hrestarting⟩⟩

end AsioTcp.Wrapper.SendSide
