import AsioTcp.Lib.OverflowQueue
import AsioTcp.Wrapper.Timer

/-!
# The sending side of `st_socket` and `st_tcp_socket_base`

Each function is modelled under the lock that it takes, so that a run is any
order of the locked sections of any number of threads. A message that does not
fit the send buffer can be posted: it then waits in the post buffer, from where
timer 2 moves it to the send buffer.
-/

namespace AsioTcp.Wrapper

open Transition

abbrev Msg := List UInt8

/-- `close_state` -/
inductive CloseState
  | normal
  | force
  | graceful
  deriving DecidableEq

/-- The members that sending uses, what is under way (calls that have allowed
sending and are about to call `send_msg()`, calls of `direct_post_msg` that have
found the send buffer full, handlers of timer 2 that have left their lock, calls
of `async_write` that have not been answered) and what has been taken, handed to
`async_write` and thrown away so far. -/
structure SendSide where
  sendMsgBuffer : List Msg
  postMsgBuffer : List Msg
  lastSendMsg : Msg
  sending : Bool
  suspendSendMsg : Bool
  posting : Bool
  closeState : CloseState
  /-- what `is_send_allowed` of the derived class asks for: `connected` of a
  connector, nothing of a server socket -/
  connected : Bool
  stopped : Bool
  timer2 : TimerInfo
  resuming : Nat
  inPost : List Msg
  ticks : List Bool
  writes : List Msg
  direct : List Msg
  posted : List Msg
  accepted : List Msg
  sent : List Msg
  thrown : List Msg
  deriving DecidableEq

/-- `splice_helper`: what it returns, and the two containers. -/
def spliceHelper (maxSize : Nat) (destCan srcCan : List Msg) : Bool × List Msg × List Msg :=
  let size := destCan.length
  if size < maxSize then
    let size := maxSize - size
    if srcCan.length > size then
      let leftNum := srcCan.length - size
      let moved := if leftNum > size then size else srcCan.length - leftNum
      (decide (size > 0), destCan ++ srcCan.take moved, srcCan.drop moved)
    else
      let size := srcCan.length
      (decide (size > 0), destCan ++ srcCan, [])
  else (false, destCan, srcCan)

namespace SendSide

/-- `is_send_allowed` of the most derived class -/
def isSendAllowed (s : SendSide) : Bool :=
  s.connected && (s.closeState = .normal && !s.suspendSendMsg)

/-- `do_send_msg` -/
def doSendMsg (s : SendSide) : SendSide :=
  if !s.isSendAllowed || s.stopped then { s with sending := false }
  else
    match s.sending, s.sendMsgBuffer with
    | false, msg :: rest =>
      { s with
        sending := true, lastSendMsg := msg, sendMsgBuffer := rest
        writes := s.writes ++ [msg], sent := s.sent ++ [msg] }
    | _, _ => s

/-- The message goes to the end of `send_msg_buffer`. -/
def push (s : SendSide) (msg : Msg) : SendSide :=
  { s with sendMsgBuffer := s.sendMsgBuffer ++ [msg] }

/-- `do_direct_send_msg`, and what it returns -/
def doDirectSendMsg (s : SendSide) (msg : Msg) : Bool × SendSide :=
  (true, if msg.isEmpty then s else (s.push msg).doSendMsg)

/-- `direct_send_msg`, and `send_msg` with what has been packed. -/
def directSendMsg (maxMsgNum : Nat) (s : SendSide) (msg : Msg) (canOverflow : Bool) :
    Bool × SendSide :=
  if canOverflow ∨ s.sendMsgBuffer.length < maxMsgNum then s.doDirectSendMsg msg else (false, s)

/-- `if (!posting) ...` -/
def startPosting (s : SendSide) : SendSide :=
  if s.posting then s else { s with posting := true, timer2 := s.timer2.setTimer 50 0 }

/-- The message goes to the end of `post_msg_buffer`. -/
def post (s : SendSide) (msg : Msg) : SendSide :=
  { s with postMsgBuffer := s.postMsgBuffer ++ [msg] }

/-- `do_direct_post_msg`, and what it returns -/
def doDirectPostMsg (s : SendSide) (msg : Msg) : Bool × SendSide :=
  (true, if msg.isEmpty then s else (s.post msg).startPosting)

/-- `direct_post_msg` up to the second lock, if it has not returned by then -/
def directPostMsg (maxMsgNum : Nat) (s : SendSide) (msg : Msg) (canOverflow : Bool) :
    Bool × SendSide :=
  match s.directSendMsg maxMsgNum msg canOverflow with
  | (true, t) => (true, t)
  | (false, t) => (false, { t with inPost := t.inPost ++ [msg] })

/-- The history after the first half of a call that has returned `ok`; an empty
message is none. -/
def record (s : SendSide) (ok : Bool) (msg : Msg) : SendSide :=
  if ok && !msg.isEmpty then
    { s with direct := s.direct ++ [msg], accepted := s.accepted ++ [msg] }
  else s

/-- The history after the second half of `direct_post_msg` -/
def recordPosted (s : SendSide) (ok : Bool) (msg : Msg) : SendSide :=
  if ok && !msg.isEmpty then
    { s with posted := s.posted ++ [msg], accepted := s.accepted ++ [msg] }
  else s

/-- `if (!sending) last_send_msg.clear();` -/
def clearLastSendMsg (s : SendSide) : SendSide :=
  if s.sending then s else { s with lastSendMsg := [] }

/-- `send_handler`, from the lock on -/
def sendHandler (s : SendSide) (ec : Bool) : SendSide :=
  let s := { s with sending := false }
  (if ec then s else s.doSendMsg).clearLastSendMsg

/-- `splice_helper(send_msg_buffer, post_msg_buffer)` -/
def splicePosted (maxMsgNum : Nat) (s : SendSide) : SendSide :=
  { s with
    sendMsgBuffer := (spliceHelper maxMsgNum s.sendMsgBuffer s.postMsgBuffer).2.1
    postMsgBuffer := (spliceHelper maxMsgNum s.sendMsgBuffer s.postMsgBuffer).2.2 }

/-- `posting = !empty;`, and what the handler is to return -/
def setPosting (s : SendSide) : SendSide :=
  { s with posting := !s.postMsgBuffer.isEmpty, ticks := s.ticks ++ [!s.postMsgBuffer.isEmpty] }

/-- `on_timer(2)`, as far as it holds the locks -/
def onTimer2 (maxMsgNum : Nat) (s : SendSide) : SendSide :=
  let t := s.splicePosted maxMsgNum
  (if (spliceHelper maxMsgNum s.sendMsgBuffer s.postMsgBuffer).1 then t.doSendMsg
    else t).setPosting

/-- `st_socket::reset_state`, of the sending side -/
def resetState (s : SendSide) : SendSide :=
  { s with posting := false, sending := false, suspendSendMsg := false }

inductive Action
  | sendMsg (msg : Msg) (canOverflow : Bool)
  /-- the first and the second half of `direct_post_msg` -/
  | postMsg (msg : Msg) (canOverflow : Bool)
  | postRest (i : Nat)
  /-- `send_msg()` -/
  | sendPending
  /-- the assignment of `suspend_send_msg` -/
  | suspendSendMsg (suspend : Bool)
  /-- that of `connected`, also in `connect_handler` -/
  | setConnected (connected : Bool)
  /-- the `send_msg()` that follows these two -/
  | resumed
  | sendHandler (i : Nat) (ec : Bool)
  /-- timer 2: its time comes, its handler runs, returns, and starts it again -/
  | timerExpires
  | onTimer
  | timerReturns (i : Nat)
  | timerRestarts
  /-- the parts of `clean_up`, `graceful_close` and `reset` -/
  | setCloseState (closeState : CloseState)
  | stopAllTimer
  | resetState
  /-- `io_service::stop` and `reset` -/
  | setStopped (stopped : Bool)
  /-- `pop_first_pending_...`, and with all there are `pop_all_pending_...`
  and `clear_buffer` -/
  | popSend (n : Nat)
  | popPost (n : Nat)

def step (maxMsgNum : Nat) (s : SendSide) : Action → Option SendSide
  | .sendMsg msg canOverflow =>
    let (ok, s) := s.directSendMsg maxMsgNum msg canOverflow
    some (s.record ok msg)
  | .postMsg msg canOverflow =>
    let (ok, s) := s.directPostMsg maxMsgNum msg canOverflow
    some (s.record ok msg)
  | .postRest i => s.inPost[i]?.map fun msg =>
      let (ok, s) := { s with inPost := s.inPost.eraseIdx i }.doDirectPostMsg msg
      s.recordPosted ok msg
  | .sendPending => some s.doSendMsg
  | .suspendSendMsg suspend =>
    some { s with
      suspendSendMsg := suspend, resuming := s.resuming + if suspend then 0 else 1 }
  | .setConnected connected =>
    some { s with connected, resuming := s.resuming + if connected then 1 else 0 }
  | .resumed =>
    if 0 < s.resuming then some { s with resuming := s.resuming - 1 }.doSendMsg else none
  | .sendHandler i ec =>
    s.writes[i]?.map fun _ => { s with writes := s.writes.eraseIdx i }.sendHandler ec
  | .timerExpires => s.timer2.expire.map fun timer2 => { s with timer2 }
  | .onTimer => s.timer2.handlerBegins.map fun timer2 => { s with timer2 }.onTimer2 maxMsgNum
  | .timerReturns i =>
    s.ticks[i]?.bind fun again => (s.timer2.handlerTests again).map fun timer2 =>
      { s with timer2, ticks := s.ticks.eraseIdx i }
  | .timerRestarts => s.timer2.handlerRestarts.map fun timer2 => { s with timer2 }
  | .setCloseState closeState => some { s with closeState }
  | .stopAllTimer => some { s with timer2 := s.timer2.stopTimer }
  | .resetState => some s.resetState
  | .setStopped stopped => some { s with stopped }
  | .popSend n =>
    some { s with
      sendMsgBuffer := s.sendMsgBuffer.drop n, thrown := s.thrown ++ s.sendMsgBuffer.take n }
  | .popPost n =>
    some { s with
      postMsgBuffer := s.postMsgBuffer.drop n, thrown := s.thrown ++ s.postMsgBuffer.take n }

/-- A new socket. -/
def start (connected : Bool) : SendSide :=
  ⟨[], [], [], false, false, false, .normal, connected, false, .fresh, 0, [], [], [], [], [], [],
    [], []⟩

/-! ## What the functions do -/

/-- As many are moved as there is room for, whichever end the loop counts from. -/
theorem spliceHelper_eq (maxSize : Nat) (destCan srcCan : List Msg) :
    spliceHelper maxSize destCan srcCan =
      (decide (destCan.length < maxSize ∧ srcCan ≠ []),
        destCan ++ srcCan.take (maxSize - destCan.length),
        srcCan.drop (maxSize - destCan.length)) := by
  unfold spliceHelper
  by_cases hroom : destCan.length < maxSize
  · by_cases hleft : srcCan.length > maxSize - destCan.length
    · have hmoved : (if srcCan.length - (maxSize - destCan.length) > maxSize - destCan.length
          then maxSize - destCan.length
          else srcCan.length - (srcCan.length - (maxSize - destCan.length))) =
          maxSize - destCan.length := by
        split <;> omega
      have hne : srcCan ≠ [] := by
        intro hnil
        rw [hnil, List.length_nil] at hleft
        omega
      simp only [if_pos hleft, hmoved, hroom, hne, ne_eq, not_false_eq_true, and_self, decide_true,
        if_true, gt_iff_lt, Nat.sub_pos_of_lt hroom]
    · simp only [if_neg hleft, hroom, if_true, true_and, List.take_of_length_le
        (Nat.not_lt.mp hleft), List.drop_of_length_le (Nat.not_lt.mp hleft), ← List.length_pos_iff,
        gt_iff_lt]
  · have hzero : maxSize - destCan.length = 0 := by omega
    simp only [hroom, hzero, if_false, false_and, decide_false, List.take_zero, List.drop_zero,
      List.append_nil]

/-- Sending is possible. -/
def Open (s : SendSide) : Prop := s.isSendAllowed = true ∧ s.stopped = false

theorem doSendMsg_cases (s : SendSide) :
    (¬ s.Open ∧ s.doSendMsg = { s with sending := false }) ∨
    (s.Open ∧ (s.sending = true ∨ s.sendMsgBuffer = []) ∧ s.doSendMsg = s) ∨
    (s.Open ∧ s.sending = false ∧ ∃ msg rest, s.sendMsgBuffer = msg :: rest ∧
      s.doSendMsg = { s with
        sending := true, lastSendMsg := msg, sendMsgBuffer := rest
        writes := s.writes ++ [msg], sent := s.sent ++ [msg] }) := by
  unfold doSendMsg Open
  cases hallowed : s.isSendAllowed <;> cases hstopped : s.stopped
  case true.false =>
    refine .inr ?_
    cases hsending : s.sending with
    | true => exact .inl ⟨⟨rfl, rfl⟩, .inl rfl, rfl⟩
    | false =>
      cases hbuffer : s.sendMsgBuffer with
      | nil => exact .inl ⟨⟨rfl, rfl⟩, .inr rfl, rfl⟩
      | cons msg rest => exact .inr ⟨⟨rfl, rfl⟩, rfl, msg, rest, rfl, rfl⟩
  all_goals exact .inl ⟨by simp, rfl⟩

theorem doSendMsg_closed {s : SendSide} (h : ¬ s.Open) :
    s.doSendMsg = { s with sending := false } := by
  obtain ⟨_, hs⟩ | ⟨hopen, _⟩ | ⟨hopen, _⟩ := doSendMsg_cases s
  · exact hs
  · exact absurd hopen h
  · exact absurd hopen h

theorem doSendMsg_writes {s : SendSide} {msg : Msg} {rest : List Msg} (h : s.Open)
    (hidle : s.sending = false) (hbuffer : s.sendMsgBuffer = msg :: rest) :
    s.doSendMsg = { s with
      sending := true, lastSendMsg := msg, sendMsgBuffer := rest
      writes := s.writes ++ [msg], sent := s.sent ++ [msg] } := by
  obtain ⟨hclosed, _⟩ | ⟨_, hnone, _⟩ | ⟨_, _, msg', rest', hbuffer', hs⟩ := doSendMsg_cases s
  · exact absurd h hclosed
  · obtain hsending | hempty := hnone
    · cases hidle.symm.trans hsending
    · cases hempty.symm.trans hbuffer
  · cases hbuffer.symm.trans hbuffer'
    exact hs

theorem doSendMsg_nothing {s : SendSide} (h : s.Open) (hempty : s.sendMsgBuffer = []) :
    s.doSendMsg = s := by
  obtain ⟨hclosed, _⟩ | ⟨_, _, hs⟩ | ⟨_, _, msg, rest, hbuffer, _⟩ := doSendMsg_cases s
  · exact absurd h hclosed
  · exact hs
  · cases hempty.symm.trans hbuffer

/-- Nothing else is touched. -/
theorem doSendMsg_eq (s : SendSide) : ∃ sending lastSendMsg sendMsgBuffer writes sent,
    s.doSendMsg = { s with sending, lastSendMsg, sendMsgBuffer, writes, sent } := by
  obtain ⟨_, hs⟩ | ⟨_, _, hs⟩ | ⟨_, _, msg, rest, _, hs⟩ := doSendMsg_cases s
  · exact ⟨_, _, _, _, _, hs⟩
  · exact ⟨_, _, _, _, _, hs⟩
  · exact ⟨_, _, _, _, _, hs⟩

theorem splicePosted_of_not_moved {maxMsgNum : Nat} {s : SendSide}
    (h : (spliceHelper maxMsgNum s.sendMsgBuffer s.postMsgBuffer).1 = false) :
    s.splicePosted maxMsgNum = s := by
  unfold splicePosted
  rw [spliceHelper_eq] at h ⊢
  have hnone : s.postMsgBuffer.take (maxMsgNum - s.sendMsgBuffer.length) = [] := by
    by_cases hroom : s.sendMsgBuffer.length < maxMsgNum
    · by_cases hempty : s.postMsgBuffer = []
      · rw [hempty, List.take_nil]
      · simp [hroom, hempty] at h
    · rw [Nat.sub_eq_zero_of_le (Nat.not_lt.mp hroom), List.take_zero]
  have hdrop : s.postMsgBuffer.drop (maxMsgNum - s.sendMsgBuffer.length) = s.postMsgBuffer := by
    have hall := List.take_append_drop (maxMsgNum - s.sendMsgBuffer.length) s.postMsgBuffer
    rwa [hnone, List.nil_append] at hall
  simp only [hnone, hdrop, List.append_nil]

/-! ## What they keep -/

section Keeps

variable {P : SendSide → Prop} {maxMsgNum : Nat} {s : SendSide} {msg : Msg}

theorem directSendMsg_keeps (hpush : P (s.push msg).doSendMsg) (h : P s) (canOverflow : Bool) :
    P (s.directSendMsg maxMsgNum msg canOverflow).2 := by
  unfold directSendMsg doDirectSendMsg
  split
  · dsimp only
    split
    · exact h
    · exact hpush
  · exact h

theorem directPostMsg_keeps (hpush : P (s.push msg).doSendMsg) (h : P s)
    (hrefuse : P { s with inPost := s.inPost ++ [msg] }) (canOverflow : Bool) :
    P (s.directPostMsg maxMsgNum msg canOverflow).2 := by
  have hsent : P (s.directSendMsg maxMsgNum msg canOverflow).2 :=
    directSendMsg_keeps hpush h canOverflow
  unfold directPostMsg
  unfold directSendMsg at hsent ⊢
  by_cases hroom : canOverflow ∨ s.sendMsgBuffer.length < maxMsgNum
  · rw [if_pos hroom] at hsent ⊢
    exact hsent
  · rw [if_neg hroom]
    exact hrefuse

theorem doDirectPostMsg_keeps (hpost : P (s.post msg).startPosting) (h : P s) :
    P (s.doDirectPostMsg msg).2 := by
  unfold doDirectPostMsg
  dsimp only
  split
  · exact h
  · exact hpost

/-- What does not depend on the history -/
theorem record_keeps {ok : Bool} (h : P s)
    (hhistory : ∀ direct accepted, P s → P { s with direct, accepted }) : P (s.record ok msg) := by
  unfold record
  split
  · exact hhistory _ _ h
  · exact h

theorem recordPosted_keeps {ok : Bool} (h : P s)
    (hhistory : ∀ posted accepted, P s → P { s with posted, accepted }) :
    P (s.recordPosted ok msg) := by
  unfold recordPosted
  split
  · exact hhistory _ _ h
  · exact h

theorem clearLastSendMsg_keeps
    (hclear : ∀ t : SendSide, t.sending = false → P t → P { t with lastSendMsg := [] }) (h : P s) :
    P s.clearLastSendMsg := by
  unfold clearLastSendMsg
  split
  · exact h
  · rename_i hidle
    exact hclear s (eq_false_of_ne_true hidle) h

theorem sendHandler_keeps (h : P { s with sending := false })
    (hsend : P { s with sending := false }.doSendMsg)
    (hclear : ∀ t : SendSide, t.sending = false → P t → P { t with lastSendMsg := [] })
    (ec : Bool) : P (s.sendHandler ec) := by
  cases ec with
  | true => exact clearLastSendMsg_keeps hclear h
  | false => exact clearLastSendMsg_keeps hclear hsend

theorem onTimer2_keeps {Q : SendSide → Prop} (hmoved : P (s.splicePosted maxMsgNum).doSendMsg)
    (h : P s) (hposting : ∀ t : SendSide, P t → Q t.setPosting) : Q (s.onTimer2 maxMsgNum) := by
  unfold onTimer2
  dsimp only
  split
  · exact hposting _ hmoved
  · rename_i hnot
    rw [splicePosted_of_not_moved (eq_false_of_ne_true hnot)]
    exact hposting s h

end Keeps

theorem step_sendMsg {maxMsgNum : Nat} {s t : SendSide} {msg : Msg} {canOverflow : Bool}
    (h : step maxMsgNum s (.sendMsg msg canOverflow) = some t) :
    t = (s.directSendMsg maxMsgNum msg canOverflow).2.record
      (s.directSendMsg maxMsgNum msg canOverflow).1 msg :=
  (Option.some.inj h).symm

theorem step_postMsg {maxMsgNum : Nat} {s t : SendSide} {msg : Msg} {canOverflow : Bool}
    (h : step maxMsgNum s (.postMsg msg canOverflow) = some t) :
    t = (s.directPostMsg maxMsgNum msg canOverflow).2.record
      (s.directPostMsg maxMsgNum msg canOverflow).1 msg :=
  (Option.some.inj h).symm

theorem step_postRest {maxMsgNum : Nat} {s t : SendSide} {i : Nat}
    (h : step maxMsgNum s (.postRest i) = some t) : ∃ msg, s.inPost[i]? = some msg ∧
      t = ({ s with inPost := s.inPost.eraseIdx i }.doDirectPostMsg msg).2.recordPosted
        ({ s with inPost := s.inPost.eraseIdx i }.doDirectPostMsg msg).1 msg := by
  obtain ⟨msg, hi, ht⟩ := Option.map_eq_some_iff.mp h
  exact ⟨msg, hi, ht.symm⟩

theorem step_resumed {maxMsgNum : Nat} {s t : SendSide} (h : step maxMsgNum s .resumed = some t) :
    0 < s.resuming ∧ t = { s with resuming := s.resuming - 1 }.doSendMsg := by
  unfold step at h
  dsimp only at h
  split at h
  · rename_i hresuming
    exact ⟨hresuming, (Option.some.inj h).symm⟩
  · cases h

/-! ## The two buffers -/

/-- The buffers and the history. -/
def queue (s : SendSide) : OverflowQueue Msg :=
  ⟨s.sendMsgBuffer, s.postMsgBuffer, s.direct, s.posted, s.accepted, s.sent, s.thrown⟩

theorem startPosting_eq (s : SendSide) :
    ∃ posting timer2, s.startPosting = { s with posting, timer2 } := by
  unfold startPosting
  split
  · exact ⟨_, _, rfl⟩
  · exact ⟨_, _, rfl⟩

@[simp] theorem clearLastSendMsg_queue (s : SendSide) : s.clearLastSendMsg.queue = s.queue := by
  unfold clearLastSendMsg
  split <;> rfl

section Queue

variable {ok : OverflowQueue Msg → OverflowQueue.Op Msg → Prop}

theorem doSendMsg_queue (htake : ∀ q, ok q .take) (s : SendSide) :
    Reach OverflowQueue.step ok s.queue s.doSendMsg.queue := by
  obtain ⟨_, hs⟩ | ⟨_, _, hs⟩ | ⟨_, _, msg, rest, hbuffer, hs⟩ := doSendMsg_cases s
  · rw [hs]
    exact .refl
  · rw [hs]
    exact .refl
  · refine .single (a := .take) (htake _) ?_
    rw [hs, OverflowQueue.step, queue, hbuffer]
    rfl

/-- Sending and the history have nothing to do with each other. -/
theorem doSendMsg_record (s : SendSide) (ok : Bool) (msg : Msg) :
    s.doSendMsg.record ok msg = (s.record ok msg).doSendMsg := by
  unfold record
  split
  · unfold doSendMsg
    split
    · rename_i hclosed
      exact (if_pos hclosed).symm
    · rename_i hopen
      refine Eq.trans ?_ (if_neg hopen).symm
      dsimp only
      split <;> rfl
  · rfl

theorem directSendMsg_queue (htake : ∀ q, ok q .take) {s : SendSide} {msg : Msg}
    (hpush : ok s.queue (.push msg)) (maxMsgNum : Nat) (canOverflow : Bool) :
    Reach OverflowQueue.step ok s.queue ((s.directSendMsg maxMsgNum msg canOverflow).2.record
      (s.directSendMsg maxMsgNum msg canOverflow).1 msg).queue := by
  unfold directSendMsg doDirectSendMsg
  split
  · cases hempty : msg.isEmpty with
    | true =>
      rw [record, hempty]
      exact .refl
    | false =>
      simp only [Bool.false_eq_true, if_false, doSendMsg_record]
      refine (Reach.single (a := .push msg) hpush ?_).trans (doSendMsg_queue htake _)
      rw [record, hempty]
      rfl
  · exact .refl

theorem directPostMsg_queue {s : SendSide} {msg : Msg} {maxMsgNum : Nat} {canOverflow : Bool} :
    ((s.directPostMsg maxMsgNum msg canOverflow).2.record
      (s.directPostMsg maxMsgNum msg canOverflow).1 msg).queue =
      ((s.directSendMsg maxMsgNum msg canOverflow).2.record
        (s.directSendMsg maxMsgNum msg canOverflow).1 msg).queue := by
  unfold directPostMsg
  split
  · rename_i h
    rw [h]
  · rename_i h
    rw [h]
    rfl

theorem doDirectPostMsg_queue {s : SendSide} {msg : Msg} (hpost : ok s.queue (.post msg)) :
    Reach OverflowQueue.step ok s.queue
      ((s.doDirectPostMsg msg).2.recordPosted (s.doDirectPostMsg msg).1 msg).queue := by
  unfold doDirectPostMsg
  cases hempty : msg.isEmpty with
  | true =>
    rw [recordPosted, hempty]
    exact .refl
  | false =>
    refine .single (a := .post msg) hpost ?_
    obtain ⟨posting, timer2, hs⟩ := startPosting_eq (s.post msg)
    rw [recordPosted, hempty]
    simp only [Bool.false_eq_true, if_false, hs]
    rfl

theorem sendHandler_queue (htake : ∀ q, ok q .take) (s : SendSide) (ec : Bool) :
    Reach OverflowQueue.step ok s.queue (s.sendHandler ec).queue := by
  unfold sendHandler
  rw [clearLastSendMsg_queue]
  cases ec with
  | true => exact .refl
  | false => exact doSendMsg_queue htake { s with sending := false }

theorem onTimer2_queue (htake : ∀ q, ok q .take) (hsplice : ∀ q n, ok q (.splice n))
    (maxMsgNum : Nat) (s : SendSide) :
    Reach OverflowQueue.step ok s.queue (s.onTimer2 maxMsgNum).queue := by
  have hmoved : Reach OverflowQueue.step ok s.queue (s.splicePosted maxMsgNum).queue := by
    refine .single (a := .splice (maxMsgNum - s.sendMsgBuffer.length)) (hsplice _ _) ?_
    simp only [OverflowQueue.step, queue, splicePosted, spliceHelper_eq]
  refine hmoved.trans ?_
  unfold onTimer2
  dsimp only
  split
  · exact doSendMsg_queue htake (s.splicePosted maxMsgNum)
  · exact .refl

/-- The action may put a message into the send buffer. -/
def Action.Sends : Action → Prop
  | .sendMsg _ _ => True
  | .postMsg _ _ => True
  | _ => False

/-- The action takes messages out of the buffers that are not sent. -/
def Action.Pops : Action → Prop
  | .popSend _ => True
  | .popPost _ => True
  | _ => False

/-- Every step is a run of the two queues. -/
theorem step_queue {maxMsgNum : Nat} {s t : SendSide} {a : Action} (htake : ∀ q, ok q .take)
    (hsplice : ∀ q n, ok q (.splice n)) (hpost : ∀ q msg, ok q (.post msg))
    (hpush : a.Sends → ∀ msg, ok s.queue (.push msg))
    (hdrop : a.Pops → ∀ n, ok s.queue (.dropMain n) ∧ ok s.queue (.dropOverflow n))
    (h : step maxMsgNum s a = some t) : Reach OverflowQueue.step ok s.queue t.queue := by
  cases a with
  | sendMsg msg canOverflow =>
    rw [step_sendMsg h]
    exact directSendMsg_queue htake (hpush trivial msg) maxMsgNum canOverflow
  | postMsg msg canOverflow =>
    rw [step_postMsg h, directPostMsg_queue]
    exact directSendMsg_queue htake (hpush trivial msg) maxMsgNum canOverflow
  | postRest i =>
    obtain ⟨msg, _, rfl⟩ := step_postRest h
    exact doDirectPostMsg_queue (s := { s with inPost := s.inPost.eraseIdx i }) (hpost _ msg)
  | sendPending =>
    cases h
    exact doSendMsg_queue htake s
  | sendHandler i ec =>
    obtain ⟨_, _, rfl⟩ := Option.map_eq_some_iff.mp h
    exact sendHandler_queue htake { s with writes := s.writes.eraseIdx i } ec
  | onTimer =>
    obtain ⟨timer2, _, rfl⟩ := Option.map_eq_some_iff.mp h
    exact onTimer2_queue htake hsplice maxMsgNum { s with timer2 }
  | popSend n =>
    cases h
    exact .single (a := .dropMain n) (hdrop trivial n).1 rfl
  | popPost n =>
    cases h
    exact .single (a := .dropOverflow n) (hdrop trivial n).2 rfl
  | timerExpires =>
    obtain ⟨timer2, _, rfl⟩ := Option.map_eq_some_iff.mp h
    exact .refl
  | timerReturns i =>
    obtain ⟨again, _, h⟩ := Option.bind_eq_some_iff.mp h
    obtain ⟨timer2, _, rfl⟩ := Option.map_eq_some_iff.mp h
    exact .refl
  | timerRestarts =>
    obtain ⟨timer2, _, rfl⟩ := Option.map_eq_some_iff.mp h
    exact .refl
  | resumed =>
    obtain ⟨_, rfl⟩ := step_resumed h
    exact doSendMsg_queue htake { s with resuming := s.resuming - 1 }
  | suspendSendMsg | setCloseState | setConnected | stopAllTimer | resetState | setStopped =>
    cases h
    exact .refl

end Queue

end SendSide

end AsioTcp.Wrapper
