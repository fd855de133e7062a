import AsioTcp.Server
import Mathlib.Data.Multiset.Count

/-!
# What one step of a `server_tcp` can do

`Effect` lists what a step does to the registry, to the sessions and to the
calls that have a session on its way in or read from it; `effect_of_step` is
the inversion lemma. Steps that concern no session are all one effect, `quiet`.
-/

namespace AsioTcp.Server

open Transition Interleaving

/-- A `handler_accept` in the queue or running that has not yet called
`start_accept`. -/
def Call.inChain : Call → Bool
  | .accepted _ _ | .handlerAccept _ _ => true
  | .admitted _ | .counted _ _ => true
  | .starting _ | .joining _ | .joined _ | .startAccept => true
  | _ => false

def handlers (calls : Multiset Call) : Nat := calls.countP fun c => c.inChain = true

@[simp] theorem handlers_zero : handlers 0 = 0 := rfl

@[simp] theorem handlers_cons (c : Call) (calls : Multiset Call) :
    handlers (c ::ₘ calls) = handlers calls + if c.inChain then 1 else 0 :=
  Multiset.countP_cons _ c calls

@[simp] theorem handlers_singleton (c : Call) :
    handlers {c} = if c.inChain then 1 else 0 :=
  countP_one _ c

@[simp] theorem handlers_add (calls calls' : Multiset Call) :
    handlers (calls + calls') = handlers calls + handlers calls' :=
  Multiset.countP_add _ calls calls'

theorem handlers_one {c d : Call} (h : d.inChain = c.inChain) :
    handlers {d} = handlers {c} := by
  rw [handlers_singleton, handlers_singleton, h]

/-- The calls that have a thread of `io_service::run`. -/
def threads (calls : Multiset Call) : Nat := calls.countP fun c => c.onThread = true

@[simp] theorem threads_zero : threads 0 = 0 := rfl

@[simp] theorem threads_cons (c : Call) (calls : Multiset Call) :
    threads (c ::ₘ calls) = threads calls + if c.onThread then 1 else 0 :=
  Multiset.countP_cons _ c calls

@[simp] theorem threads_singleton (c : Call) :
    threads {c} = if c.onThread then 1 else 0 :=
  countP_one _ c

@[simp] theorem threads_add (calls calls' : Multiset Call) :
    threads (calls + calls') = threads calls + threads calls' :=
  Multiset.countP_add _ calls calls'

/-- A call of `start` or `stop`. -/
def Call.control : Call → Bool
  | .start _ | .stop _ => true
  | _ => false

/-- How far a session has come. -/
inductive Stage
  /-- accepted, or the accept has failed -/
  | arriving
  | admitted
  /-- this value of `curr_client_id_` has been read for it -/
  | counted (id : UInt32)
  /-- it has its id, and is to join -/
  | numbered
  /-- `session_tcp::start` between `join` and `do_read`, an outstanding read,
  or the handler of a read -/
  | reading
  deriving DecidableEq

/-- The session that a call has on its way in, or reads from. -/
def Call.stage : Call → Option (Nat × Stage)
  | .accepted sid _ | .handlerAccept sid _ => some (sid, .arriving)
  | .admitted sid => some (sid, .admitted)
  | .counted sid id => some (sid, .counted id)
  | .starting sid | .joining sid => some (sid, .numbered)
  | .joined sid | .asyncRead sid _ | .readDone sid _ _ | .handlerRead sid _ _ =>
    some (sid, .reading)
  | _ => none

/-- No call has a session. -/
def Plain (calls : Multiset Call) : Prop := ∀ c ∈ calls, c.stage = none

theorem plain_zero : Plain 0 := fun c hc => absurd hc (Multiset.notMem_zero c)

theorem plain_singleton {c : Call} (h : c.stage = none) : Plain {c} := by
  intro d hd
  obtain rfl := Multiset.mem_singleton.mp hd
  exact h

/-- The calls that an action takes out. -/
def taken : Action → Multiset Call
  | .enter _ => 0
  | .run c _ => {c}

@[simp] theorem taken_enter (e : Event) : taken (.enter e) = 0 := rfl

@[simp] theorem taken_run (c : Call) (o : Outcome) : taken (.run c o) = {c} := rfl

/-- The action belongs to the thread that calls `start` and `stop`. -/
def controls : Action → Bool
  | .enter .start | .enter .stop => true
  | .enter _ => false
  | .run c _ => c.control

/-- Nothing changes that `start` and `stop` have to themselves. -/
structure SameControl (s s' : ServerTcp) : Prop where
  ioThreadNum : s'.ioThreadNum = s.ioThreadNum
  acceptorOpen : s'.acceptorOpen = s.acceptorOpen
  stopped : s'.stopped = s.stopped
  ioThreadArray : s'.ioThreadArray = s.ioThreadArray
  running : s'.running = s.running
  phase : s'.phase = s.phase
  starts : s'.starts = s.starts

theorem SameControl.refl (s : ServerTcp) : SameControl s s := ⟨rfl, rfl, rfl, rfl, rfl, rfl, rfl⟩

/-- A handler leaves `start` and `stop` alone, and runs on a thread. -/
structure Handled (s : ServerTcp) (rest : Multiset Call) (a : Action) (s' : ServerTcp)
    (new : Multiset Call) : Prop where
  same : SameControl s s'
  calls : ∀ c ∈ new, c.control = false
  threads : threads new ≤ threads (taken a) ∨ s.ThreadFree rest ∧ threads new = 1

/-- Nothing changes that concerns a session. -/
structure Same (s s' : ServerTcp) : Prop where
  maxConn : s'.maxConn = s.maxConn
  accepting : s'.accepting = s.accepting
  connectionList : s'.connectionList = s.connectionList
  clients : s'.clients = s.clients
  created : s'.created = s.created
  currClientId : s'.currClientId = s.currClientId
  terminated : s'.terminated = s.terminated
  asserted : s'.asserted = s.asserted
  starts : s'.starts = s.starts
  admissions : s'.admissions = s.admissions
  left : s'.left = s.left

theorem Same.refl (s : ServerTcp) : Same s s :=
  ⟨rfl, rfl, rfl, rfl, rfl, rfl, rfl, rfl, rfl, rfl, rfl⟩

/-- `connection_mgr::stop` has gone through `sids`. -/
structure Disconnected (f : Nat → Disconnect) (sids : List Nat) (s s' : ServerTcp)
    (threw : Bool) : Prop where
  same : s' = { s with connectionList := s'.connectionList, clients := s'.clients }
  list : s'.connectionList = if threw then s.connectionList else []
  id : ∀ i, (s'.clients i).clientId = (s.clients i).clientId
  closed : ∀ i, (s.clients i).closed = true → (s'.clients i).closed = true
  all : threw = false → ∀ sid ∈ sids, f sid = .closed → (s'.clients sid).closed = true

theorem disconnect_spec (f : Nat → Disconnect) (sids : List Nat) (s : ServerTcp) :
    Disconnected f sids s (ServerTcp.disconnect f sids s).1 (ServerTcp.disconnect f sids s).2 := by
  induction sids generalizing s with
  | nil => exact ⟨rfl, rfl, fun _ => rfl, fun _ h => h, fun _ sid hsid => nomatch hsid⟩
  | cons sid rest ih =>
    unfold ServerTcp.disconnect
    split
    · rename_i hf
      obtain ⟨hsame, hlist, hid, hclosed, hall⟩ :=
        ih (s.setClient sid { s.clients sid with closed := true })
      have hkeep : ∀ i, ((s.setClient sid { s.clients sid with closed := true }).clients i).clientId
          = (s.clients i).clientId ∧ ((s.clients i).closed = true ∨ i = sid →
          ((s.setClient sid { s.clients sid with closed := true }).clients i).closed = true) := by
        intro i
        by_cases hi : i = sid <;> simp [ServerTcp.setClient, hi]
      refine ⟨hsame, hlist, fun i => (hid i).trans (hkeep i).1,
        fun i h => hclosed i ((hkeep i).2 (Or.inl h)), fun hgo i hi hfi => ?_⟩
      rcases List.mem_cons.mp hi with rfl | hi
      · exact hclosed i ((hkeep i).2 (Or.inr rfl))
      · exact hall hgo i hi hfi
    · rename_i hf
      obtain ⟨hsame, hlist, hid, hclosed, hall⟩ := ih s
      refine ⟨hsame, hlist, hid, hclosed, fun hgo i hi hfi => ?_⟩
      rcases List.mem_cons.mp hi with rfl | hi
      · rw [hf] at hfi
        cases hfi
      · exact hall hgo i hi hfi
    · exact ⟨rfl, rfl, fun _ => rfl, fun _ h => h, fun hgo => nomatch hgo⟩

/-- `start_accept`: the new session waits in a pending accept, or its handler
is in the queue at once. -/
inductive Begins (s : ServerTcp) : List Nat → Multiset Call → Prop
  | pending : Begins s (s.created :: s.accepting) 0
  | closed : Begins s s.accepting {.accepted s.created true}

theorem startAccept_spec (s : ServerTcp) : ∃ accepting new,
    s.startAccept = (s.create accepting, new) ∧ Begins s accepting new := by
  unfold ServerTcp.startAccept
  split
  · exact ⟨_, _, rfl, .pending⟩
  · exact ⟨_, _, rfl, .closed⟩

inductive Effect (s : ServerTcp) (rest : Multiset Call) :
    Action → ServerTcp → Multiset Call → Prop
  | quiet {a : Action} {s' : ServerTcp} {new : Multiset Call} :
      Same s s' → Plain (taken a) → Plain new → handlers new = handlers (taken a) →
      (controls a = false → Handled s rest a s' new) → Effect s rest a s' new
  | accept {sid : Nat} {error : Bool} : sid ∈ s.accepting →
      Effect s rest (.enter (.accept sid error)) (s.takeAccept sid) {.accepted sid error}
  /-- a call goes on with its session as it is -/
  | move {c d : Call} {o : Outcome} {s' : ServerTcp} {extra : Multiset Call} :
      Same s s' → d.stage = c.stage → Plain extra → handlers (d ::ₘ extra) = handlers {c} →
      Handled s rest (.run c o) s' (d ::ₘ extra) → Effect s rest (.run c o) s' (d ::ₘ extra)
  | refuse {sid : Nat} {o : Outcome} : s.canJoin = false →
      Effect s rest (.run (.handlerAccept sid false) o) s {.startAccept}
  | pass {sid : Nat} {o : Outcome} : s.canJoin = true →
      Effect s rest (.run (.handlerAccept sid false) o) s {.admitted sid}
  | count {sid : Nat} {o : Outcome} :
      Effect s rest (.run (.admitted sid) o) s {.counted sid s.currClientId}
  | assign {sid : Nat} {id : UInt32} {o : Outcome} :
      Effect s rest (.run (.counted sid id) o) (s.assignId sid id) {.starting sid}
  | join {sid : Nat} {o : Outcome} : o ≠ .throws → s.size ≤ s.maxConn.toNat →
      Effect s rest (.run (.joining sid) o) (s.insert sid) {.joined sid}
  | joinFailed {sid : Nat} {o : Outcome} : s.maxConn.toNat < s.size →
      Effect s rest (.run (.joining sid) o) s.failAssert {.startAccept}
  /-- an error branch -/
  | leave {sid : Nat} {c : Call} {o : Outcome} {new : Multiset Call} :
      (∀ p, c.stage = some p → p = (sid, .arriving) ∨ p = (sid, .reading)) → Plain new → handlers new = handlers {c} →
      Handled s rest (.run c o) (s.leave sid) new → Effect s rest (.run c o) (s.leave sid) new
  | create {o : Outcome} {accepting : List Nat} {new : Multiset Call} :
      Begins s accepting new → Effect s rest (.run .startAccept o) (s.create accepting) new
  /-- `start` comes to its `start_accept` -/
  | restart {o : Outcome} {accepting : List Nat} {new : Multiset Call} :
      Begins s accepting new → Effect s rest (.run (.start .startAccept) o)
        (s.resetId.create accepting) (.start .resize ::ₘ new)
  | cancel {p p' : StopPoint} {o : Outcome} {s' : ServerTcp} : Same s.cancelAccepts.1 s' →
      Effect s rest (.run (.stop p) o) s' (.stop p' ::ₘ s.cancelAccepts.2)
  | disconnect {f : Nat → Disconnect} {s' : ServerTcp} {new : Multiset Call} :
      Same (ServerTcp.disconnect f s.connectionList s).1 s' → Plain new → handlers new = 0 →
      Effect s rest (.run (.stop .disconnect) (.disconnects f)) s' new
  /-- an exception leaves a handler, or `stop` uses a thread that is not there -/
  | crash {c : Call} {o : Outcome} : Effect s rest (.run c o) s.terminate 0

theorem handled_zero {s s' : ServerTcp} {rest : Multiset Call} {a : Action}
    (h : SameControl s s') : Handled s rest a s' 0 :=
  ⟨h, fun c hc => absurd hc (Multiset.notMem_zero c), Or.inl (Nat.zero_le _)⟩

/-- A handler goes on, or a call that has no thread does. -/
theorem handled_one {s s' : ServerTcp} {rest : Multiset Call} {c d : Call} {o : Outcome}
    (h : SameControl s s') (hd : d.control = false) (hthread : d.onThread = true → c.onThread = true) :
    Handled s rest (.run c o) s' {d} := by
  refine ⟨h, fun e he => ?_, Or.inl ?_⟩
  · obtain rfl := Multiset.mem_singleton.mp he
    exact hd
  · rw [taken_run, threads_singleton, threads_singleton]
    cases hd : d.onThread with
    | true => rw [hthread hd]
    | false => exact Nat.zero_le _

/-- A thread takes a handler from the queue. -/
theorem handled_begin {s : ServerTcp} {rest : Multiset Call} {c d : Call} {o : Outcome}
    (hfree : s.ThreadFree rest) (hd : d.control = false) (hthread : d.onThread = true) :
    Handled s rest (.run c o) s {d} := by
  refine ⟨.refl s, fun e he => ?_, Or.inr ⟨hfree, ?_⟩⟩
  · obtain rfl := Multiset.mem_singleton.mp he
    exact hd
  · rw [threads_singleton, hthread]
    rfl

/-- A call of a session goes on. -/
theorem Effect.move_one {s s' : ServerTcp} {rest : Multiset Call} {c d : Call} {o : Outcome}
    (h : Same s s') (hstage : d.stage = c.stage) (hchain : d.inChain = c.inChain)
    (hhandled : Handled s rest (.run c o) s' {d}) : Effect s rest (.run c o) s' {d} :=
  .move h hstage plain_zero (handlers_one hchain) hhandled

/-- A step of `start` or `stop` that concerns no session. -/
theorem Effect.controlled {s s' : ServerTcp} {rest : Multiset Call} {c d : Call} {o : Outcome}
    (h : Same s s') (hc : c.control = true) (hd : d.control = true) :
    Effect s rest (.run c o) s' {d} := by
  have hplain : ∀ e : Call, e.control = true → e.stage = none ∧ e.inChain = false := by
    intro e he
    cases e <;> first | exact ⟨rfl, rfl⟩ | cases he
  refine .quiet h (plain_singleton (hplain c hc).1) (plain_singleton (hplain d hd).1) ?_ fun hn => ?_
  · exact handlers_one ((hplain d hd).2.trans (hplain c hc).2.symm)
  · exact absurd (hc.symm.trans hn) nofun

/-- `start` or `stop` ends. -/
theorem Effect.returns {s s' : ServerTcp} {rest : Multiset Call} {c : Call} {o : Outcome}
    (h : Same s s') (hc : c.control = true) : Effect s rest (.run c o) s' 0 := by
  have hplain : c.stage = none ∧ c.inChain = false := by
    cases c <;> first | exact ⟨rfl, rfl⟩ | cases hc
  refine .quiet h (plain_singleton hplain.1) plain_zero ?_ fun hn => ?_
  · rw [taken_run, handlers_singleton, hplain.2]
    rfl
  · exact absurd (hc.symm.trans hn) nofun

theorem effect_accept {s s' : ServerTcp} {rest new : Multiset Call} {c : Call} {o : Outcome}
    (h : acceptNext s rest c o = some (s', new)) : Effect s rest (.run c o) s' new := by
  have hsame : SameControl s s := .refl s
  unfold acceptNext at h
  split at h
  · split at h <;> cases h
    rename_i hfree
    exact .move_one (.refl s) rfl rfl (handled_begin hfree rfl rfl)
  -- an exception
  iterate 5
    · cases h
      exact .crash
  · cases h
    exact .leave (fun p hp => by cases hp; exact Or.inl rfl) (plain_singleton rfl) (handlers_one rfl)
      (handled_one { hsame with } rfl id)
  · cases h
    cases hcan : s.canJoin with
    | true => exact .pass hcan
    | false => exact .refuse hcan
  · cases h
    exact .count
  · cases h
    exact .assign
  · cases h
    exact .move_one (.refl s) rfl rfl (handled_one hsame rfl id)
  · rename_i sid ho
    by_cases hsize : s.maxConn.toNat < s.size
    · simp only [ServerTcp.join, if_pos hsize] at h
      cases h
      exact .joinFailed hsize
    · simp only [ServerTcp.join, if_neg hsize] at h
      cases h
      exact .join ho (Nat.not_lt.mp hsize)
  · cases h
    refine .move (.refl s) rfl (plain_singleton rfl) rfl ⟨hsame, fun d hd => ?_, Or.inl ?_⟩
    · rcases Multiset.mem_cons.mp hd with rfl | hd
      · rfl
      · obtain rfl := Multiset.mem_singleton.mp hd
        rfl
    · simp [Call.onThread]
  · obtain ⟨accepting, calls, hr, hbegins⟩ := startAccept_spec s
    rw [hr] at h
    cases h
    exact .create hbegins
  · cases h

theorem effect_session {s s' : ServerTcp} {rest new : Multiset Call} {c : Call} {o : Outcome}
    (h : sessionNext s rest c o = some (s', new)) : Effect s rest (.run c o) s' new := by
  have hsame : SameControl s s := .refl s
  have halloc : ∀ alloc, Same s (s.setAlloc alloc) := fun _ =>
    ⟨rfl, rfl, rfl, rfl, rfl, rfl, rfl, rfl, rfl, rfl, rfl⟩
  unfold sessionNext at h
  split at h
  · split at h <;> cases h
    exact .move_one (.refl s) rfl rfl (handled_one hsame rfl nofun)
  · cases h
    exact .move_one (.refl s) rfl rfl (handled_one hsame rfl nofun)
  · split at h <;> cases h
    rename_i hfree
    exact .move_one (.refl s) rfl rfl (handled_begin hfree rfl rfl)
  · cases h
    exact .leave (fun p hp => by cases hp; exact Or.inr rfl) plain_zero rfl
      (handled_zero { hsame with })
  · cases h
    exact .move_one (.refl s) rfl rfl (handled_one hsame rfl nofun)
  · split at h <;> cases h
    · exact .move_one (halloc _) rfl rfl (handled_one { hsame with } rfl nofun)
    · exact .crash
  · cases h
    exact .crash
  · split at h <;> cases h
    rename_i hfree
    exact .quiet (.refl s) (plain_singleton rfl) (plain_singleton rfl) rfl
      fun _ => handled_begin hfree rfl rfl
  · cases h
    exact .leave (fun p hp => by cases hp) plain_zero rfl (handled_zero { hsame with })
  · cases h
    exact .quiet (halloc _) (plain_singleton rfl) plain_zero rfl
      fun _ => handled_zero { hsame with }
  · cases h

theorem effect_start {s s' : ServerTcp} {rest new : Multiset Call} {point : StartPoint}
    {o : Outcome} (h : startNext s point o = some (s', new)) :
    Effect s rest (.run (.start point) o) s' new := by
  have hsame : Same s s := .refl s
  unfold startNext at h
  split at h
  · cases h
    exact .controlled { hsame with } rfl rfl
  · split at h <;> cases h
    · exact .returns { hsame with } rfl
    · exact .controlled { hsame with } rfl rfl
  · cases h
    exact .controlled hsame rfl rfl
  · obtain ⟨accepting, calls, hr, hbegins⟩ := startAccept_spec s.resetId
    rw [hr] at h
    cases h
    exact .restart (match hbegins with
      | .pending => .pending
      | .closed => .closed)
  · cases h
    exact .controlled { hsame with } rfl rfl
  · split at h <;> cases h
    · exact .controlled { hsame with } rfl rfl
    · exact .returns { hsame with } rfl
  · cases h
    exact .returns { hsame with } rfl
  · cases h

theorem effect_stop {s s' : ServerTcp} {rest new : Multiset Call} {point : StopPoint}
    {o : Outcome} (h : stopNext s rest point o = some (s', new)) :
    Effect s rest (.run (.stop point) o) s' new := by
  have hsame : Same s s := .refl s
  unfold stopNext at h
  split at h
  · split at h <;> cases h
    · exact .cancel (.refl _)
    · exact .returns { hsame with } rfl
  · cases h
    exact .cancel ⟨rfl, rfl, rfl, rfl, rfl, rfl, rfl, rfl, rfl, rfl, rfl⟩
  · rename_i f
    split at h <;> rename_i hd <;> cases h
    · apply Effect.disconnect _ plain_zero rfl
      rw [hd]
      exact ⟨rfl, rfl, rfl, rfl, rfl, rfl, rfl, rfl, rfl, rfl, rfl⟩
    · apply Effect.disconnect _ (plain_singleton rfl) rfl
      rw [hd]
      exact .refl _
  · cases h
    exact .controlled { hsame with } rfl rfl
  · split at h
    · split at h
      · split at h <;> cases h
        exact .controlled { hsame with } rfl rfl
      · cases h
        exact .crash
    · cases h
      exact .controlled { hsame with } rfl rfl
  · cases h
    exact .returns { hsame with } rfl
  · cases h

theorem effect_enter {s s' : ServerTcp} {rest new : Multiset Call} {e : Event}
    (h : enter s e = some (s', new)) : Effect s rest (.enter e) s' new := by
  have hsame : Same s s := .refl s
  cases e with
  | start | stop =>
    simp only [enter] at h
    split at h <;> cases h
    exact .quiet { hsame with } plain_zero (plain_singleton rfl) rfl nofun
  | accept sid error =>
    simp only [enter] at h
    split at h <;> cases h
    rename_i hmem
    exact .accept hmem
  | written sid error =>
    simp only [enter] at h
    split at h <;> cases h
    refine .quiet hsame plain_zero (plain_singleton rfl) rfl fun _ => ⟨.refl s, fun c hc => ?_, ?_⟩
    · obtain rfl := Multiset.mem_singleton.mp hc
      rfl
    · exact Or.inl (Nat.le_refl 0)

/-- Which function a call of a handler goes on with. -/
theorem next_handler (s : ServerTcp) (rest : Multiset Call) (c : Call) (o : Outcome) :
    (c.inChain = true → next s rest c o = acceptNext s rest c o) ∧
      (c.inChain = false → (∀ p, c ≠ .start p) → (∀ p, c ≠ .stop p) →
        next s rest c o = sessionNext s rest c o) := by
  cases c <;> simp [Call.inChain, next]

theorem effect_next {s s' : ServerTcp} {rest new : Multiset Call} {c : Call} {o : Outcome}
    (h : next s rest c o = some (s', new)) : Effect s rest (.run c o) s' new := by
  obtain ⟨haccept, hsession⟩ := next_handler s rest c o
  cases hc : c.inChain with
  | true =>
    rw [haccept hc] at h
    exact effect_accept h
  | false =>
    by_cases hstart : ∃ p, c = .start p
    · obtain ⟨p, rfl⟩ := hstart
      exact effect_start h
    by_cases hstop : ∃ p, c = .stop p
    · obtain ⟨p, rfl⟩ := hstop
      exact effect_stop h
    rw [hsession hc (fun p hp => hstart ⟨p, hp⟩) fun p hp => hstop ⟨p, hp⟩] at h
    exact effect_session h

/-- **Inversion.** A step is taken while the process runs, and has one of the
effects above. -/
theorem effect_of_step {s t : State} {a : Action} (h : step s a = some t) :
    s.shared.terminated = false ∧ ∃ new rest, s.calls = taken a + rest ∧
      t.calls = new + rest ∧ Effect s.shared rest a t.shared new := by
  cases a with
  | enter e =>
    obtain ⟨cs, hcs, ht⟩ := Program.step_enter h
    simp only [program] at hcs
    split at hcs
    · cases hcs
    · rename_i halive
      exact ⟨eq_false_of_ne_true halive, cs, s.calls, (Multiset.zero_add _).symm, ht,
        effect_enter hcs⟩
  | run c o =>
    obtain ⟨rest, cs, hcalls, hcs, ht⟩ := Program.step_run h
    simp only [program] at hcs
    split at hcs
    · cases hcs
    · rename_i halive
      exact ⟨eq_false_of_ne_true halive, cs, rest,
        hcalls.trans (Multiset.singleton_add c rest).symm, ht, effect_next hcs⟩

/-- What does not belong to `start` and `stop` leaves them alone. -/
theorem handled_of_effect {s s' : ServerTcp} {rest new : Multiset Call} {a : Action}
    (h : Effect s rest a s' new) (hc : controls a = false) : Handled s rest a s' new := by
  have hsame : SameControl s s := .refl s
  cases h with
  | quiet _ _ _ _ hhandled => exact hhandled hc
  | move _ _ _ _ hhandled | leave _ _ _ hhandled => exact hhandled
  | accept =>
    refine ⟨{ hsame with }, fun c hc => ?_, Or.inl (Nat.le_refl 0)⟩
    obtain rfl := Multiset.mem_singleton.mp hc
    rfl
  | refuse | pass | count => exact handled_one hsame rfl id
  | assign | join | joinFailed => exact handled_one { hsame with } rfl id
  | create hbegins =>
    cases hbegins with
    | pending => exact handled_zero { hsame with }
    | closed => exact handled_one { hsame with } rfl nofun
  | restart | cancel | disconnect => cases hc
  | crash => exact handled_zero { hsame with }

/-- A step of the thread that calls `start` and `stop`. -/
inductive ControlStep (s t : State) : Action → Prop
  | enterStart : s.shared.phase = .stopped → t.shared = s.shared.enterPhase .busy →
      t.calls = .start .reset ::ₘ s.calls → ControlStep s t (.enter .start)
  | enterStop : s.shared.phase = .started → t.shared = s.shared.enterPhase .busy →
      t.calls = .stop .cancel ::ₘ s.calls → ControlStep s t (.enter .stop)
  | start {p : StartPoint} {o : Outcome} {rest new : Multiset Call} :
      s.calls = .start p ::ₘ rest → startNext s.shared p o = some (t.shared, new) →
      t.calls = new + rest → ControlStep s t (.run (.start p) o)
  | stop {p : StopPoint} {o : Outcome} {rest new : Multiset Call} :
      s.calls = .stop p ::ₘ rest → stopNext s.shared rest p o = some (t.shared, new) →
      t.calls = new + rest → ControlStep s t (.run (.stop p) o)

theorem control_of_step {s t : State} {a : Action} (hs : step s a = some t)
    (hc : controls a = true) : ControlStep s t a := by
  have halive := (effect_of_step hs).1
  cases a with
  | enter e =>
    obtain ⟨cs, hcs, ht⟩ := Program.step_enter hs
    simp only [program, halive, Bool.false_eq_true, ↓reduceIte] at hcs
    cases e with
    | start =>
      simp only [enter] at hcs
      split at hcs
      · rename_i hphase
        have hr := Option.some.inj hcs
        have hcalls : {.start .reset} = cs := congrArg Prod.snd hr
        exact .enterStart hphase (congrArg Prod.fst hr).symm (by rw [ht, ← hcalls]; rfl)
      · cases hcs
    | stop =>
      simp only [enter] at hcs
      split at hcs
      · rename_i hphase
        have hr := Option.some.inj hcs
        have hcalls : {.stop .cancel} = cs := congrArg Prod.snd hr
        exact .enterStop hphase (congrArg Prod.fst hr).symm (by rw [ht, ← hcalls]; rfl)
      · cases hcs
    | accept | written => cases hc
  | run c o =>
    obtain ⟨rest, cs, hcalls, hcs, ht⟩ := Program.step_run hs
    simp only [program, halive, Bool.false_eq_true, ↓reduceIte] at hcs
    cases c with
    | start p => exact .start hcalls hcs ht
    | stop p => exact .stop hcalls hcs ht
    | _ => cases hc

end AsioTcp.Server
