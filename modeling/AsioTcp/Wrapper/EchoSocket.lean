import AsioTcp.Wrapper.Dispatch
import AsioTcp.Wrapper.MessageStream
import AsioTcp.Wrapper.SendQueue

/-!
# `echo_socket`

The socket of the echo server: `on_msg` posts every message back. Nothing else
is sent, and `dispatch_msg` stops while messages wait in the post buffer, so
that they go back in the order in which they have come: the bytes that are
written are those that have arrived (`echo_exact`).
-/

namespace AsioTcp.Wrapper

open Transition

/-- The two sides of the socket, and the message for which `on_msg` is between
the two locks of `post_msg`, with the call of `dispatch_msg` that it is in. -/
structure EchoSocket where
  recv : RecvSide
  send : SendSide
  inOnMsg : Option (Nat × Nat × Bool × Msg)

namespace EchoSocket

/-- What `on_msg` posts. -/
def reply (c : Config) (msg : Msg) : Msg := packMsg c (some [some msg]) false

inductive Action
  | recv (a : RecvSide.Action)
  | send (a : SendSide.Action)
  /-- `on_msg`, called by call `i` of `dispatch_msg` -/
  | onMsg (i : Nat)
  | onMsgRest

/-- What happens to the receiving side beside `on_msg`; a call of `dispatch_msg`
does not go on while it is in there. A socket that is used again is another one. -/
def recvAllowed (s : EchoSocket) : RecvSide.Action → Bool
  | .start => false
  | .clearBuffer => false
  | .onMsg _ _ => false
  | .scanEnds _ _ => s.inOnMsg.isNone
  | _ => true

/-- What happens to the sending side beside `on_msg`. -/
def sendAllowed : SendSide.Action → Bool
  | .sendMsg _ _ => false
  | .postMsg _ _ => false
  | .postRest _ => false
  | .popSend _ => false
  | .popPost _ => false
  | _ => true

def step (c : Config) (maxMsgNum : Nat) (s : EchoSocket) : Action → Option EchoSocket
  | .recv a =>
    if s.recvAllowed a then
      (s.recv.step false maxMsgNum a).map fun recv => { s with recv }
    else none
  | .send a =>
    if sendAllowed a then (s.send.step maxMsgNum a).map fun send => { s with send } else none
  | .onMsg i => (s.recv.calls[i]?.bind Call.scanning).bind fun (k, dispatch) =>
      if s.inOnMsg.isSome || s.recv.suspendDispatchMsg || s.send.posting then none
      else s.recv.tempMsgBuffer[k]?.map fun msg =>
        let posted := s.send.directPostMsg maxMsgNum (reply c msg) false
        let send := posted.2.record posted.1 (reply c msg)
        if posted.1 then { s with send, recv := s.recv.accept i k dispatch msg }
        else { s with send, inOnMsg := some (i, k, dispatch, msg) }
  | .onMsgRest => s.inOnMsg.bind fun (i, k, dispatch, msg) =>
      (s.send.step maxMsgNum (.postRest 0)).map fun send =>
        ⟨s.recv.accept i k dispatch msg, send, none⟩

def start : EchoSocket := ⟨.start, .start true, none⟩

/-! ## The sending side -/

/-- The state is not reset while messages wait in the post buffer. -/
def Alive (s : EchoSocket) : Action → Prop
  | .send .resetState => s.send.postMsgBuffer = []
  | _ => True

instance (s : EchoSocket) (a : Action) : Decidable (Alive s a) := by
  unfold Alive
  split <;> infer_instance

/-- Nothing is sent past what waits in the post buffer. -/
theorem step_send {c : Config} {maxMsgNum : Nat} {s t : EchoSocket} {a : Action} (hok : Alive s a)
    (h : step c maxMsgNum s a = some t) :
    Reach (SendSide.step maxMsgNum) SendSide.InTurn s.send t.send := by
  cases a with
  | recv a =>
    simp only [step] at h
    split at h
    · obtain ⟨recv, _, rfl⟩ := Option.map_eq_some_iff.mp h
      exact .refl
    · cases h
  | send a =>
    simp only [step] at h
    split at h
    · rename_i hallowed
      obtain ⟨send, hs, rfl⟩ := Option.map_eq_some_iff.mp h
      refine .single ?_ hs
      cases a with
      | sendMsg | postMsg | popSend | popPost => cases hallowed
      | resetState => exact hok
      | _ => trivial
    · cases h
  | onMsg i =>
    obtain ⟨⟨k, d⟩, _, h⟩ := Option.bind_eq_some_iff.mp h
    dsimp only at h
    split at h
    · cases h
    · rename_i hgoing
      obtain ⟨msg, _, rfl⟩ := Option.map_eq_some_iff.mp h
      have hposting : s.send.posting = false := by
        simp only [Bool.or_eq_true, not_or] at hgoing
        exact eq_false_of_ne_true hgoing.2
      have hpost : Reach (SendSide.step maxMsgNum) SendSide.InTurn s.send
          ((s.send.directPostMsg maxMsgNum (reply c msg) false).2.record
            (s.send.directPostMsg maxMsgNum (reply c msg) false).1 (reply c msg)) :=
        .single (a := .postMsg (reply c msg) false) hposting rfl
      split
      · exact hpost
      · exact hpost
  | onMsgRest =>
    obtain ⟨⟨i, k, d, msg⟩, _, h⟩ := Option.bind_eq_some_iff.mp h
    obtain ⟨send, hs, rfl⟩ := Option.map_eq_some_iff.mp h
    exact .single (a := .postRest 0) trivial hs

theorem reach_send {c : Config} {maxMsgNum : Nat} {s : EchoSocket}
    (h : Reach (step c maxMsgNum) Alive start s) :
    Reach (SendSide.step maxMsgNum) SendSide.InTurn (SendSide.start true) s.send :=
  h.simulate EchoSocket.send rfl (fun _ _ _ _ hok hs => step_send hok hs)

/-- Beside `on_msg` no message is taken. -/
theorem sendAllowed_frame {maxMsgNum : Nat} {s t : SendSide} {a : SendSide.Action}
    (hallowed : sendAllowed a = true) (h : s.step maxMsgNum a = some t) :
    t.accepted = s.accepted ∧ t.inPost = s.inPost := by
  have hsend : ∀ u : SendSide, u.accepted = s.accepted ∧ u.inPost = s.inPost →
      u.doSendMsg.accepted = s.accepted ∧ u.doSendMsg.inPost = s.inPost := by
    intro u hu
    obtain ⟨_, _, _, _, _, hs⟩ := SendSide.doSendMsg_eq u
    rw [hs]
    exact hu
  cases a with
  | sendMsg | postMsg | postRest | popSend | popPost => cases hallowed
  | sendPending =>
    cases h
    exact hsend s ⟨rfl, rfl⟩
  | resumed =>
    obtain ⟨_, rfl⟩ := SendSide.step_resumed h
    exact hsend { s with resuming := s.resuming - 1 } ⟨rfl, rfl⟩
  | sendHandler i ec =>
    obtain ⟨_, _, rfl⟩ := Option.map_eq_some_iff.mp h
    exact SendSide.sendHandler_keeps (s := { s with writes := s.writes.eraseIdx i })
      (P := fun t => t.accepted = s.accepted ∧ t.inPost = s.inPost) ⟨rfl, rfl⟩
      (hsend { s with writes := s.writes.eraseIdx i, sending := false } ⟨rfl, rfl⟩)
      (fun _ _ ht => ht) ec
  | onTimer =>
    obtain ⟨timer2, _, rfl⟩ := Option.map_eq_some_iff.mp h
    exact SendSide.onTimer2_keeps
      (P := fun t => t.accepted = s.accepted ∧ t.inPost = s.inPost)
      (Q := fun t => t.accepted = s.accepted ∧ t.inPost = s.inPost)
      (hsend ({ s with timer2 }.splicePosted maxMsgNum) ⟨rfl, rfl⟩) ⟨rfl, rfl⟩ (fun _ ht => ht)
  | timerExpires =>
    obtain ⟨timer2, _, rfl⟩ := Option.map_eq_some_iff.mp h
    exact ⟨rfl, rfl⟩
  | timerReturns i =>
    obtain ⟨again, _, h⟩ := Option.bind_eq_some_iff.mp h
    obtain ⟨timer2, _, rfl⟩ := Option.map_eq_some_iff.mp h
    exact ⟨rfl, rfl⟩
  | timerRestarts =>
    obtain ⟨timer2, _, rfl⟩ := Option.map_eq_some_iff.mp h
    exact ⟨rfl, rfl⟩
  | suspendSendMsg | setConnected | setCloseState | stopAllTimer | resetState | setStopped =>
    cases h
    exact ⟨rfl, rfl⟩

/-! ## The receiving side -/

/-- What the receiving side comes to where `on_msg` takes every message: the
receive buffer is not used. -/
structure Direct (r : RecvSide) : Prop where
  calls : ∀ call ∈ r.calls, call = .scan 0 false ∨ call = .finish
  alone : r.tokens ≤ 1
  recvMsgBuffer : r.recvMsgBuffer = []
  queued : r.queued = 0
  running : r.running = []
  unpacked : r.unpacked = r.taken ++ r.tempMsgBuffer

/-- The members that `on_msg` and the calls of `dispatch_msg` see are the same. -/
def SameFront (r r' : RecvSide) : Prop :=
  r'.calls = r.calls ∧ r'.tempMsgBuffer = r.tempMsgBuffer ∧ r'.taken = r.taken ∧
    r'.unpacked = r.unpacked

theorem Direct.same {r r' : RecvSide} (h : Direct r) (hfront : SameFront r r')
    (htokens : r'.tokens ≤ r.tokens) (hrecv : r'.recvMsgBuffer = r.recvMsgBuffer)
    (hqueued : r'.queued = r.queued) (hrunning : r'.running = r.running) : Direct r' := by
  obtain ⟨hcalls, htemp, htaken, hunpacked⟩ := hfront
  exact ⟨hcalls ▸ h.calls, Nat.le_trans htokens h.alone, hrecv.trans h.recvMsgBuffer,
    hqueued.trans h.queued, hrunning.trans h.running, by rw [hunpacked, htaken, htemp, h.unpacked]⟩

theorem Direct.doDispatchMsg {r : RecvSide} (h : Direct r) (posting : Bool) :
    Direct (r.doDispatchMsg false posting) ∧ SameFront r (r.doDispatchMsg false posting) := by
  have hall : ∀ r' : RecvSide, Direct r' →
      Direct (r'.dispatchAll false) ∧ SameFront r' (r'.dispatchAll false) := by
    intro r' hr'
    have hfront : SameFront r' (r'.dispatchAll false) := ⟨rfl, rfl, rfl, rfl⟩
    exact ⟨hr'.same hfront (Nat.le_refl _) hr'.recvMsgBuffer.symm rfl rfl, hfront⟩
  obtain ⟨timer1, hs⟩ | ⟨_, hs⟩ | ⟨_, hs⟩ | ⟨_, msg, rest, hbuffer, _⟩ :=
    RecvSide.doDispatchMsg_cases false posting r
  · rw [hs]
    have hfront : SameFront r { r with timer1 } := ⟨rfl, rfl, rfl, rfl⟩
    exact ⟨h.same hfront (Nat.le_refl _) rfl rfl rfl, hfront⟩
  · rw [hs]
    exact hall { r with dispatching := false }
      (h.same ⟨rfl, rfl, rfl, rfl⟩ (Nat.le_refl _) rfl rfl rfl)
  · rw [hs]
    exact hall r h
  · cases h.recvMsgBuffer.symm.trans hbuffer

/-- Nothing is under way that could go on beside a call of `dispatch_msg`. -/
theorem Direct.calls_nil {r : RecvSide} (h : Direct r)
    (hpos : 0 < r.reads + r.timer0.pending + r.timer0.expired) : r.calls = [] := by
  have halone := h.alone
  unfold RecvSide.tokens at halone
  exact List.length_eq_zero_iff.mp (by omega)

theorem Direct.index_zero {r : RecvSide} (h : Direct r) {i : Nat} {call : Call}
    (hi : r.calls[i]? = some call) : i = 0 ∧ r.calls = [call] := by
  have halone := h.alone
  unfold RecvSide.tokens at halone
  have hlt := (List.getElem?_eq_some_iff.mp hi).1
  obtain ⟨only, honly⟩ := List.length_eq_one_iff.mp (show r.calls.length = 1 by omega)
  rw [honly, List.length_singleton] at hlt
  have hzero : i = 0 := by omega
  rw [hzero, honly] at hi
  cases hi
  exact ⟨hzero, honly⟩

/-! ## Both sides together -/

/-- What has been taken for sending are the replies to the messages that
`on_msg` has accepted; the one that it is at is the first of those that wait. -/
structure Echoes (c : Config) (s : EchoSocket) : Prop where
  direct : Direct s.recv
  accepted : s.send.accepted.flatten = s.recv.taken.flatMap (reply c)
  idle : s.inOnMsg = none → s.send.inPost = []
  busy : ∀ i k dispatch msg, s.inOnMsg = some (i, k, dispatch, msg) → k = 0 ∧ dispatch = false ∧
    s.recv.calls[i]? = some (.scan 0 false) ∧ s.recv.tempMsgBuffer[0]? = some msg ∧
      s.send.inPost = [reply c msg]

variable {c : Config} {maxMsgNum : Nat} {s t : EchoSocket}

theorem Echoes.recv_same (h : Echoes c s) {recv : RecvSide} (hdirect : Direct recv)
    (hfront : SameFront s.recv recv) : Echoes c { s with recv } := by
  obtain ⟨hcalls, htemp, htaken, _⟩ := hfront
  refine ⟨hdirect, by rw [htaken]; exact h.accepted, h.idle, ?_⟩
  rw [hcalls, htemp]
  exact h.busy

/-- Where there is no call at a message, `on_msg` is not under way. -/
theorem Echoes.inOnMsg_none (h : Echoes c s) 
    (hcalls : ∀ i : Nat, s.recv.calls[i]? ≠ some (Call.scan 0 false)) :
    s.inOnMsg = none := by
  cases hin : s.inOnMsg with
  | none => rfl
  | some at' =>
    obtain ⟨i, k, dispatch, msg⟩ := at'
    exact absurd (h.busy i k dispatch msg hin).2.2.1 (hcalls i)

theorem Echoes.recv_idle (h : Echoes c s) {recv : RecvSide} (hdirect : Direct recv)
    (htaken : recv.taken = s.recv.taken) (hin : s.inOnMsg = none) : Echoes c { s with recv } := by
  refine ⟨hdirect, by rw [htaken]; exact h.accepted, h.idle, fun i k dispatch msg hsome => ?_⟩
  cases hin.symm.trans hsome

theorem Echoes.step_recv (h : Echoes c s) {recv : RecvSide} {a : RecvSide.Action}
    (hallowed : s.recvAllowed a = true) (hs : s.recv.step false maxMsgNum a = some recv) :
    Echoes c { s with recv } := by
  have hok : s.recv.NoStart a := by
    cases a with
    | start => cases hallowed
    | _ => trivial
  have htokens := RecvSide.step_tokens hok hs h.direct.alone
  have hsame : SameFront s.recv recv → recv.recvMsgBuffer = s.recv.recvMsgBuffer →
      recv.queued = s.recv.queued → recv.running = s.recv.running → Echoes c { s with recv } :=
    fun hfront hrecv hqueued hrunning =>
      h.recv_same (h.direct.same hfront htokens hrecv hqueued hrunning) hfront
  have hdispatch : ∀ {u : RecvSide} (posting : Bool), Direct u → SameFront s.recv u →
      recv = u.doDispatchMsg false posting → Echoes c { s with recv } := by
    intro u posting hu hfront hrecv
    obtain ⟨hdirect, hcalls, htemp, htaken, hunpacked⟩ := hu.doDispatchMsg posting
    subst hrecv
    exact h.recv_same hdirect ⟨hcalls.trans hfront.1, htemp.trans hfront.2.1,
      htaken.trans hfront.2.2.1, hunpacked.trans hfront.2.2.2⟩
  have hnoCall : s.recv.calls = [] → s.inOnMsg = none :=
    fun hnil => h.inOnMsg_none fun i => by simp [hnil]
  cases a with
  | start | onMsg | clearBuffer => cases hallowed
  | onUnpackError =>
    obtain ⟨_, rfl⟩ := RecvSide.step_onUnpackError hs
    exact hsame ⟨rfl, rfl, rfl, rfl⟩ rfl rfl rfl
  | recvHandler msgs unpackOk =>
    obtain ⟨hreads, rfl⟩ := RecvSide.step_recvHandler hs
    have hnil := h.direct.calls_nil (by omega)
    refine h.recv_idle ⟨?_, Nat.le_trans htokens h.direct.alone, h.direct.recvMsgBuffer,
      h.direct.queued, h.direct.running, ?_⟩ rfl (hnoCall hnil)
    · intro call hcall
      rw [hnil] at hcall
      exact .inl (List.mem_singleton.mp hcall)
    · simp only [h.direct.unpacked, List.append_assoc]
  | onTimer0 =>
    obtain ⟨timer0, hbegins, rfl⟩ := Option.map_eq_some_iff.mp hs
    obtain ⟨hexpired, _⟩ := TimerInfo.handlerBegins_eq_some hbegins
    have hnil := h.direct.calls_nil (by omega)
    refine h.recv_idle ⟨?_, Nat.le_trans htokens h.direct.alone, h.direct.recvMsgBuffer,
      h.direct.queued, h.direct.running, h.direct.unpacked⟩ rfl (hnoCall hnil)
    intro call hcall
    rw [hnil] at hcall
    exact .inl (List.mem_singleton.mp hcall)
  | recvError =>
    obtain ⟨_, rfl⟩ := RecvSide.step_recvError hs
    exact hsame ⟨rfl, rfl, rfl, rfl⟩ rfl rfl rfl
  | timer0Expires | timer1Expires | timer3Expires =>
    obtain ⟨_, _, rfl⟩ := Option.map_eq_some_iff.mp hs
    exact hsame ⟨rfl, rfl, rfl, rfl⟩ rfl rfl rfl
  | onTimer1 posting =>
    obtain ⟨timer1, _, rfl⟩ := Option.map_eq_some_iff.mp hs
    have hfront : SameFront s.recv { s.recv with timer1 } := ⟨rfl, rfl, rfl, rfl⟩
    exact hdispatch posting (h.direct.same hfront (Nat.le_refl _) rfl rfl rfl) hfront rfl
  | onTimer3 posting =>
    obtain ⟨timer3, _, rfl⟩ := Option.map_eq_some_iff.mp hs
    have hfront : SameFront s.recv { s.recv with timer3 } := ⟨rfl, rfl, rfl, rfl⟩
    exact hdispatch posting (h.direct.same hfront (Nat.le_refl _) rfl rfl rfl) hfront rfl
  | dispatch posting =>
    cases hs
    exact hdispatch posting h.direct ⟨rfl, rfl, rfl, rfl⟩ rfl
  | scanEnds i posting =>
    obtain ⟨k, dispatch, hcall, rfl⟩ := RecvSide.step_scanEnds hs
    have hfirst := h.direct.calls _ (List.mem_of_getElem? hcall)
    have hdispatch : dispatch = false := by
      obtain hscan | hfinish := hfirst
      · cases hscan
        rfl
      · cases hfinish
    rw [hdispatch] at htokens ⊢
    refine h.recv_idle ⟨?_, Nat.le_trans htokens h.direct.alone, h.direct.recvMsgBuffer,
      h.direct.queued, h.direct.running, h.direct.unpacked⟩ rfl
      (Option.isNone_iff_eq_none.mp hallowed)
    intro call hmem
    obtain hold | rfl := List.mem_or_eq_of_mem_set hmem
    · exact h.direct.calls call hold
    · exact .inr rfl
  | splices i posting =>
    obtain ⟨hcall, _⟩ := RecvSide.step_splices hs
    obtain hscan | hfinish := h.direct.calls _ (List.mem_of_getElem? hcall)
    · cases hscan
    · cases hfinish
  | callDispatches i posting =>
    obtain ⟨hcall, _⟩ := RecvSide.step_callDispatches hs
    obtain hscan | hfinish := h.direct.calls _ (List.mem_of_getElem? hcall)
    · cases hscan
    · cases hfinish
  | finishes i =>
    obtain ⟨hcall, rfl⟩ := RecvSide.step_finishes hs
    obtain ⟨rfl, hcalls⟩ := h.direct.index_zero hcall
    have hin : s.inOnMsg = none := by
      refine h.inOnMsg_none fun i hscan => ?_
      have hmem := List.mem_of_getElem? hscan
      rw [hcalls] at hmem
      cases List.mem_singleton.mp hmem
    obtain ⟨reads, timer0, hfinish⟩ := RecvSide.finish_eq (s.recv.leave 0)
    rw [hfinish] at htokens ⊢
    refine h.recv_idle ⟨?_, Nat.le_trans htokens h.direct.alone, h.direct.recvMsgBuffer,
      h.direct.queued, h.direct.running, h.direct.unpacked⟩ rfl hin
    intro call hmem
    simp only [RecvSide.leave, hcalls] at hmem
    cases hmem
  | onMsgHandle re =>
    obtain ⟨hpos, _⟩ := RecvSide.step_onMsgHandle hs
    exact absurd h.direct.queued (Nat.ne_of_gt hpos)
  | handlerEnds i posting =>
    obtain ⟨re, hre, _⟩ := Option.map_eq_some_iff.mp hs
    rw [h.direct.running] at hre
    cases hre
  | suspendDispatchMsg | stopAllTimer | resetState | setOpen | setStopped =>
    cases hs
    exact hsame ⟨rfl, rfl, rfl, rfl⟩ rfl rfl rfl
  | popRecv n =>
    cases hs
    refine hsame ⟨rfl, rfl, rfl, rfl⟩ ?_ rfl rfl
    simp only [h.direct.recvMsgBuffer, List.drop_nil]

theorem Echoes.step_send (h : Echoes c s) {send : SendSide} {a : SendSide.Action}
    (hallowed : sendAllowed a = true) (hs : s.send.step maxMsgNum a = some send) :
    Echoes c { s with send } := by
  obtain ⟨haccepted, hinPost⟩ := sendAllowed_frame hallowed hs
  refine ⟨h.direct, by rw [haccepted]; exact h.accepted, fun hin => ?_, fun i k d msg hin => ?_⟩
  · rw [hinPost]
    exact h.idle hin
  · rw [hinPost]
    exact h.busy i k d msg hin

/-- A message is taken off the front. -/
theorem Direct.accept {r : RecvSide} (h : Direct r) {msg : Msg} (i : Nat)
    (hmsg : r.tempMsgBuffer[0]? = some msg) : Direct (r.accept i 0 false msg) := by
  obtain ⟨rest, htemp⟩ : ∃ rest, r.tempMsgBuffer = msg :: rest := by
    cases hbuffer : r.tempMsgBuffer with
    | nil =>
      rw [hbuffer] at hmsg
      cases hmsg
    | cons first rest =>
      rw [hbuffer] at hmsg
      cases hmsg
      exact ⟨rest, rfl⟩
  refine ⟨fun call hmem => ?_, ?_, h.recvMsgBuffer, h.queued, h.running, ?_⟩
  · obtain hold | rfl := List.mem_or_eq_of_mem_set hmem
    · exact h.calls call hold
    · exact .inl rfl
  · exact Nat.le_trans (Nat.le_of_eq (RecvSide.setCall_tokens _ i _)) h.alone
  · simp only [RecvSide.accept, RecvSide.setCall, h.unpacked, htemp, List.eraseIdx_zero,
      List.tail_cons, List.append_assoc, List.singleton_append]

theorem directPostMsg_accepted (maxMsgNum : Nat) (s : SendSide) (msg : Msg) :
    (∃ send, s.directPostMsg maxMsgNum msg false = (true, send) ∧
      (send.record true msg).accepted.flatten = s.accepted.flatten ++ msg ∧
      (send.record true msg).inPost = s.inPost) ∨
    s.directPostMsg maxMsgNum msg false = (false, { s with inPost := s.inPost ++ [msg] }) := by
  unfold SendSide.directPostMsg SendSide.directSendMsg
  split
  · rename_i hroom
    split at hroom
    · cases hroom
      refine .inl ⟨_, rfl, ?_⟩
      cases hempty : msg.isEmpty with
      | true =>
        rw [SendSide.record, hempty, List.isEmpty_iff.mp hempty, List.append_nil]
        exact ⟨rfl, rfl⟩
      | false =>
        obtain ⟨_, _, _, _, _, hsend⟩ := SendSide.doSendMsg_eq (s.push msg)
        rw [SendSide.record, hempty]
        simp only [Bool.false_eq_true, if_false, hsend]
        exact ⟨by simp [SendSide.push], rfl⟩
    · cases hroom
  · rename_i hfull
    split at hfull
    · cases hfull
    · cases hfull
      exact .inr rfl

theorem doDirectPostMsg_accepted (s : SendSide) (msg : Msg) :
    ((s.doDirectPostMsg msg).2.recordPosted (s.doDirectPostMsg msg).1 msg).accepted.flatten =
        s.accepted.flatten ++ msg ∧
      ((s.doDirectPostMsg msg).2.recordPosted (s.doDirectPostMsg msg).1 msg).inPost =
        s.inPost := by
  unfold SendSide.doDirectPostMsg
  cases hempty : msg.isEmpty with
  | true =>
    rw [SendSide.recordPosted, hempty, List.isEmpty_iff.mp hempty, List.append_nil]
    exact ⟨rfl, rfl⟩
  | false =>
    obtain ⟨_, _, hpost⟩ := SendSide.startPosting_eq (s.post msg)
    rw [SendSide.recordPosted, hempty]
    simp only [Bool.false_eq_true, if_false, hpost]
    exact ⟨by simp [SendSide.post], rfl⟩

theorem Echoes.step (h : Echoes c s) {a : Action} (hs : step c maxMsgNum s a = some t) :
    Echoes c t := by
  cases a with
  | recv a =>
    simp only [EchoSocket.step] at hs
    split at hs
    · obtain ⟨recv, hrecv, rfl⟩ := Option.map_eq_some_iff.mp hs
      exact h.step_recv (by assumption) hrecv
    · cases hs
  | send a =>
    simp only [EchoSocket.step] at hs
    split at hs
    · obtain ⟨send, hsend, rfl⟩ := Option.map_eq_some_iff.mp hs
      exact h.step_send (by assumption) hsend
    · cases hs
  | onMsg i =>
    obtain ⟨⟨k, d⟩, hcall, hs⟩ := Option.bind_eq_some_iff.mp hs
    obtain ⟨call, hcall, hscan⟩ := Option.bind_eq_some_iff.mp hcall
    rw [RecvSide.scanning_eq_some hscan] at hcall
    dsimp only at hs
    split at hs
    · cases hs
    · rename_i hgoing
      obtain ⟨msg, hmsg, rfl⟩ := Option.map_eq_some_iff.mp hs
      obtain ⟨rfl, rfl⟩ : k = 0 ∧ d = false := by
        obtain hfirst | hfinish := h.direct.calls _ (List.mem_of_getElem? hcall)
        · cases hfirst
          exact ⟨rfl, rfl⟩
        · cases hfinish
      have hin : s.inOnMsg = none := by
        simp only [Bool.or_eq_true, not_or] at hgoing
        exact Option.not_isSome_iff_eq_none.mp hgoing.1.1
      have hposts := h.idle hin
      obtain ⟨send, hsent, haccepted, hinPost⟩ | hrefused :=
        directPostMsg_accepted maxMsgNum s.send (reply c msg)
      · rw [hsent, if_pos rfl]
        refine ⟨h.direct.accept i hmsg, ?_, fun _ => hinPost.trans hposts, fun _ _ _ _ hsome => ?_⟩
        · change List.flatten _ = (s.recv.taken ++ [msg]).flatMap (reply c)
          rw [haccepted, h.accepted, List.flatMap_append, List.flatMap_singleton]
        · cases hin.symm.trans hsome
      · rw [hrefused, hposts, if_neg Bool.false_ne_true]
        refine ⟨h.direct, h.accepted, fun hnone => ?_, fun _ _ _ _ hsome => ?_⟩
        · cases hnone
        · cases hsome
          exact ⟨rfl, rfl, hcall, hmsg, rfl⟩
  | onMsgRest =>
    obtain ⟨⟨i, k, d, msg⟩, hin, hs⟩ := Option.bind_eq_some_iff.mp hs
    obtain ⟨rfl, rfl, _, hmsg, hinPost⟩ := h.busy i k d msg hin
    obtain ⟨send, hsend, rfl⟩ := Option.map_eq_some_iff.mp hs
    simp only [SendSide.step, hinPost, List.getElem?_cons_zero, Option.map_some,
      Option.some.injEq, List.eraseIdx_zero, List.tail_cons] at hsend
    subst hsend
    obtain ⟨haccepted, hrest⟩ := doDirectPostMsg_accepted { s.send with inPost := [] } (reply c msg)
    refine ⟨h.direct.accept i hmsg, ?_, fun _ => hrest, fun _ _ _ _ hsome => ?_⟩
    · change List.flatten _ = (s.recv.taken ++ [msg]).flatMap (reply c)
      rw [haccepted, List.flatMap_append, List.flatMap_singleton]
      exact congrArg (· ++ _) h.accepted
    · cases hsome

theorem Echoes.start (c : Config) : Echoes c start :=
  ⟨⟨fun _ hmem => (List.not_mem_nil hmem).elim, by decide, rfl, rfl, rfl, rfl⟩, rfl, fun _ => rfl,
    fun _ _ _ _ hsome => by cases hsome⟩

theorem reach_echoes (h : Reach (EchoSocket.step c maxMsgNum) Alive EchoSocket.start s) :
    Echoes c s :=
  Reach.invariant (P := Echoes c) (Echoes.start c) (fun _ _ _ _ ih _ hs => ih.step hs) h

theorem flatMap_reply {msgs : List Msg} (hpack : ∀ m ∈ msgs, c.Packable m) :
    msgs.flatMap (reply c) = msgs.flatMap c.wire := by
  rw [List.flatMap_def, List.flatMap_def]
  congr 1
  refine List.map_congr_left fun msg hmsg => ?_
  have hbody : Pieces.body [some msg] = msg := List.append_nil msg
  have hsized : Pieces.Sized [some msg] := by
    intro p hp
    cases List.mem_singleton.mp hp
    have hfits := (hpack msg hmsg).fits
    have hlt := c.msgBufferSize_lt
    simp only [Option.getD_some]
    omega
  have hreply := packMsg_of_packable hsized (by rw [hbody]; exact hpack msg hmsg)
  rwa [hbody] at hreply

/-- What has been sent is the beginning of what has been unpacked, and all of it
when nothing waits. -/
theorem echoed (h : Reach (EchoSocket.step c maxMsgNum) Alive EchoSocket.start s)
    (hpack : ∀ m ∈ s.recv.unpacked, c.Packable m) :
    s.send.sent.flatten <+: s.recv.unpacked.flatMap c.wire ∧
      (s.recv.tempMsgBuffer = [] → s.send.sendMsgBuffer = [] → s.send.postMsgBuffer = [] →
        s.send.sent.flatten = s.recv.unpacked.flatMap c.wire) := by
  have hechoes := reach_echoes h
  have hinTurn := SendSide.reach_inTurn (reach_send h)
  have hunpacked := hechoes.direct.unpacked
  have hreplies : s.recv.taken.flatMap (reply c) = s.recv.taken.flatMap c.wire := by
    refine flatMap_reply fun m hm => hpack m ?_
    rw [hunpacked]
    exact List.mem_append_left _ hm
  have hsent : s.send.sent.flatten <+: s.recv.taken.flatMap c.wire := by
    rw [← hreplies, ← hechoes.accepted, hinTurn, List.flatten_append]
    exact List.prefix_append _ _
  constructor
  · rw [hunpacked, List.flatMap_append]
    exact hsent.trans (List.prefix_append _ _)
  · intro htemp hsend hpost
    rw [hsend, hpost, List.append_nil, List.append_nil] at hinTurn
    rw [hunpacked, htemp, List.append_nil, ← hreplies, ← hechoes.accepted, hinTurn]

/-- **An echo**: if the receiving side has been given what an unpacker has
delivered, then, until the link is cleaned up with messages waiting, what is
handed to `async_write` is what has arrived, to the byte and in order; and when
nothing waits any more, every message has gone back. -/
theorem echo_exact (maxMsgNum : Nat) (raw : Buffer UInt8 c.msgBufferSize)
    (l : Link (Unpacker c) (List UInt8)) (s : EchoSocket)
    (hl : Reach (Unpacker.interface c).step always
      ((Unpacker.interface c).start (.resetState raw)) l)
    (h : Reach (step c maxMsgNum) Alive start s) (hunpacked : s.recv.unpacked <+: l.delivered) :
    s.send.sent.flatten <+: l.arrived ∧
      (s.recv.tempMsgBuffer = [] → s.send.sendMsgBuffer = [] → s.send.postMsgBuffer = [] →
        s.send.sent.flatten = s.recv.unpacked.flatMap c.wire) := by
  obtain ⟨hpack, harrived⟩ := Unpacker.arrived_eq hl
  obtain ⟨hsent, hall⟩ := echoed h fun m hm => hpack m (hunpacked.subset hm)
  refine ⟨hsent.trans ?_, hall⟩
  obtain ⟨later, hlater⟩ := hunpacked
  rw [harrived, ← hlater, List.flatMap_append, List.append_assoc]
  exact List.prefix_append _ _

/-- Three messages in two pieces, and a send buffer for one. -/
theorem echo_exact_three : ∃ (c : Config) (l : Link (Unpacker c) (List UInt8)) (s : EchoSocket),
    l.arrived = [0, 3, 65, 0, 3, 66, 0, 3, 67] ∧ s.send.postMsgBuffer = [] ∧
    s.send.sent.flatten <+: l.arrived ∧ s.send.sent.flatten = s.recv.unpacked.flatMap c.wire := by
  let c : Config := ⟨2, 8, by decide, by decide, by decide, by decide⟩
  let arrivals : List Arrival := [.data [0, 3, 65, 0], .data [3, 66, 0, 3, 67]]
  let acts : List Action := [.recv (.recvHandler [[65]] true), .onMsg 0,
    .recv (.scanEnds 0 false), .recv (.finishes 0), .recv (.recvHandler [[66], [67]] true),
    .onMsg 0, .onMsg 0, .onMsgRest, .send (.sendHandler 0 false), .send .timerExpires,
    .send .onTimer, .send (.sendHandler 0 false)]
  have hlink : (exec (Unpacker.interface c).step
      ((Unpacker.interface c).start (.resetState (.filled 0))) arrivals).map
      (fun l => (l.arrived, l.delivered)) =
      some ([0, 3, 65, 0, 3, 66, 0, 3, 67], [[65], [66], [67]]) := by
    decide +kernel
  have hrun : (exec (guarded (step c 1) Alive) start acts).map (fun s =>
      (s.recv.unpacked, s.recv.tempMsgBuffer, s.send.sendMsgBuffer, s.send.postMsgBuffer)) =
      some ([[65], [66], [67]], [], [], []) := by
    decide +kernel
  obtain ⟨l, hl, hseen⟩ := Option.map_eq_some_iff.mp hlink
  obtain ⟨s, hs, hseen'⟩ := Option.map_eq_some_iff.mp hrun
  simp only [Prod.mk.injEq] at hseen hseen'
  obtain ⟨harrived, hdelivered⟩ := hseen
  obtain ⟨hunpacked, htemp, hsend, hpost⟩ := hseen'
  have hall := echo_exact 1 (.filled 0) l s (Reach.of_exec arrivals hl)
    (Reach.of_exec_guarded acts hs) (by rewrite [hunpacked, hdelivered]; exact List.prefix_rfl)
  exact ⟨c, l, s, harrived, hpost, hall.1, hall.2 htemp hsend hpost⟩

end EchoSocket

end AsioTcp.Wrapper
