import AsioTcp.PoolInvariant

/-!
# A session that has left

Each of the four handlers of a session calls `leave` when its operation has
failed, and does nothing more: it closes no socket, and what the session has
started otherwise goes on. `left_unserved` says when the session is done with
all the same; `left_served` is a run in which a write fails, the session leaves
and then serves a message that its peer still sends. `connection_mgr::stop`, in
contrast, closes the sockets of the sessions that it takes off the list.
-/

namespace AsioTcp.Manager

open Transition Interleaving

/-- The step is an error branch of a handler of the session, with its `leave`. -/
def leavesSession (sid : Nat) : Action → Bool
  | .run (.chain i (.handler _ true) _) _ | .run (.reading i (.handler _ true)) _ => i == sid
  | _ => false

/-- The call has a message that the session has received and not yet queued. -/
def Call.delivers (sid : Nat) : Call → Bool
  | .reading i (.handler .body false) | .allocate (.processMsg i) _ => i == sid
  | .allocateRetry (.processMsg i) _ | .inHand (.processMsg i) _ => i == sid
  | _ => false

def NothingReceived (s : State) (sid : Nat) : Prop := ∀ c ∈ s.calls, c.delivers sid = false

instance (s : State) (sid : Nat) : Decidable (NothingReceived s sid) :=
  inferInstanceAs (Decidable (∀ c ∈ s.calls, c.delivers sid = false))

/-- A body read of the session succeeds, or a caller from outside passes it a
message. -/
def reaches (sid : Nat) : Action → Bool
  | .run (.reading i (.asyncRead (.body _))) .go => i == sid
  | .run (.inHand .application _) (.write i) => i == sid
  | _ => false

def Unreached (sid : Nat) (_ : State) (a : Action) : Prop := reaches sid a = false

instance (sid : Nat) (s : State) (a : Action) : Decidable (Unreached sid s a) :=
  inferInstanceAs (Decidable (reaches sid a = false))

/-- The step passes a message from outside to a session that waits in `async_accept`. -/
def writesEarly (s : State) : Action → Bool
  | .run (.inHand .application _) (.write sid) => decide (.accepting sid ∈ s.calls)
  | _ => false

/-- Callers from outside have their sessions from `find`. -/
def Known (s : State) (a : Action) : Prop := writesEarly s a = false

instance (s : State) (a : Action) : Decidable (Known s a) :=
  inferInstanceAs (Decidable (writesEarly s a = false))

/-- From `t` to `u` no message of the session is processed and none is added to
its queue. -/
structure Unserved (sid : Nat) (t u : State) : Prop where
  out : (u.shared.sessions sid).joined = false
  processed : ∀ o, step u (.run (.reading sid (.handler .body false)) o) = none
  pushed : (u.shared.sessions sid).write.pushed = (t.shared.sessions sid).write.pushed
  queue : (u.shared.sessions sid).write.msgQueue <:+ (t.shared.sessions sid).write.msgQueue

/-! ## What a call goes on as -/

/-- The sessions that a `write_to_all` has yet to write to. -/
def Call.targets : Call → List Nat
  | .broadcast _ todo | .chain _ _ (some (.writeToAll _ _ todo)) => todo
  | .allocate (.writeToAll _ sid todo) _ | .allocateRetry (.writeToAll _ sid todo) _ => sid :: todo
  | .inHand (.writeToAll _ sid todo) _ => sid :: todo
  | _ => []

def Call.Concerns (sid : Nat) (c : Call) : Prop := c.session = some sid ∨ sid ∈ c.targets

instance (sid : Nat) : DecidablePred (Call.Concerns sid) :=
  fun _ => inferInstanceAs (Decidable (_ ∨ _))

/-- What `c` may go on as: a session comes in by a message from outside only,
and a message to deliver by a body read only. -/
structure Succeeds (c : Call) (o : Outcome) (d : Call) : Prop where
  concerns : ∀ sid, d.Concerns sid →
    c.Concerns sid ∨ ∃ msg, c = .inHand .application msg ∧ o = .write sid
  delivers : ∀ sid, d.delivers sid = true → c.delivers sid = true ∨
    ∃ n, c = .reading sid (.asyncRead (.body n)) ∧ o = .go
  targets : ∀ sid ∈ d.targets, sid ∈ c.targets
  accepting : ∀ sid, d ≠ .accepting sid

/-- The call stays with the sessions that it has. -/
theorem succeeds_same {c d : Call} {o : Outcome} (hs : ∀ sid, d.session = some sid → c.session = some sid)
    (ht : ∀ sid ∈ d.targets, sid ∈ c.targets)
    (hd : ∀ sid, d.delivers sid = true → c.delivers sid = true)
    (ha : ∀ sid, d ≠ .accepting sid) : Succeeds c o d where
  concerns sid := fun h => Or.inl (h.imp (hs sid) (ht sid))
  delivers sid h := Or.inl (hd sid h)
  targets := ht
  accepting := ha

/-- What goes on when `write` has returned. -/
theorem succeeds_resumed {sid : Nat} {c : WriteCall Ref} {task : Option Task} {o : Outcome}
    (hmay : ∀ t, task = some t → t.MayWrite sid) {d : Call} (hd : d ∈ resumed c task) :
    Succeeds (.chain sid c task) o d := by
  have hresume : ∀ t, t.MayWrite sid → d ∈ t.resume → Succeeds (.chain sid c (some t)) o d := by
    intro t hsid ht
    cases t with
    | processMsg i =>
      obtain rfl := Multiset.mem_singleton.mp ht
      obtain rfl : sid = i := hsid
      exact succeeds_same (fun _ => id) (fun _ hi => by cases hi) (fun _ hd => by cases hd)
        fun _ he => by cases he
    | writeToAll header i todo =>
      obtain rfl := Multiset.mem_singleton.mp ht
      exact succeeds_same (fun _ hi => by cases hi) (fun _ => id) (fun _ hd => by cases hd)
        fun _ he => by cases he
    | application => exact absurd ht (Multiset.notMem_zero d)
  cases task with
  | none => cases c <;> exact absurd hd (Multiset.notMem_zero d)
  | some t =>
    cases c with
    | writeOnEmpty msg => exact absurd hd (Multiset.notMem_zero d)
    | _ => exact hresume t (hmay t rfl) hd

theorem succeeds_chain {sid : Nat} {c e : WriteCall Ref} {task : Option Task} {o : Outcome} :
    Succeeds (.chain sid c task) o (.chain sid e (carried c task)) := by
  refine succeeds_same (fun _ => id) ?_ (fun _ hd => by cases hd) fun _ he => by cases he
  intro i hi
  cases hcarried : carried c task with
  | none => rw [hcarried] at hi; cases hi
  | some t =>
    rw [hcarried] at hi
    rw [carried_task hcarried]
    cases t <;> exact hi

/-- What the section of a call does to the registry, and what it goes on as. -/
structure Ran (s : Shared) (c : Call) (o : Outcome) (s' : Shared) (cs : Multiset Call) : Prop where
  created : s'.created = s.created
  joined : ∀ i, (s'.sessions i).joined = true → (s.sessions i).joined = true ∨ c = .accepting i
  calls : ∀ d ∈ cs, Succeeds c o d

theorem ran_end {s s' : Shared} {c : Call} {o : Outcome} (hc : s'.created = s.created)
    (hj : ∀ i, (s'.sessions i).joined = true → (s.sessions i).joined = true) : Ran s c o s' 0 :=
  ⟨hc, fun i hi => Or.inl (hj i hi), fun d hd => absurd hd (Multiset.notMem_zero d)⟩

theorem ran_one {s s' : Shared} {c d : Call} {o : Outcome} (hc : s'.created = s.created)
    (hj : ∀ i, (s'.sessions i).joined = true → (s.sessions i).joined = true)
    (hd : Succeeds c o d) : Ran s c o s' {d} := by
  refine ⟨hc, fun i hi => Or.inl (hj i hi), fun e he => ?_⟩
  rwa [Multiset.mem_singleton.mp he]

/-- The update of a session leaves the registry alone, or takes sessions off it. -/
theorem joined_update {s : Shared} {sid : Nat} {f : Session → Session}
    (hf : ∀ x, (f x).joined = true → x.joined = true) (i : Nat)
    (hi : ((s.update sid f).sessions i).joined = true) : (s.sessions i).joined = true :=
  update_rel s sid f (fun x y => y.joined = true → x.joined = true) (fun _ => id) (hf _) i hi

theorem joined_leave (s : Shared) (sid i : Nat) (hi : ((s.leave sid).sessions i).joined = true) :
    (s.sessions i).joined = true :=
  joined_update (fun _ h => by cases h) i hi

theorem joined_setWrite (s : Shared) (sid : Nat) (w : WriteSide Ref) (i : Nat)
    (hi : ((s.setWrite sid w).sessions i).joined = true) : (s.sessions i).joined = true :=
  joined_update (f := Session.withWrite w) (fun _ => id) i hi

theorem ran_chain {s s' : Shared} {rest cs : Multiset Call} {sid : Nat} {c : WriteCall Ref}
    {task : Option Task} {o : Outcome} (hmay : ∀ t, task = some t → t.MayWrite sid)
    (h : chainNext s rest sid c task o = some (s', cs)) : Ran s (.chain sid c task) o s' cs := by
  simp only [chainNext] at h
  split at h
  · cases h
  split at h
  · split at h <;> cases h
    exact ran_end rfl (joined_leave s sid)
  · cases h
    refine ran_one rfl (joined_update (f := Session.withLocked true) fun _ => id) ?_
    exact succeeds_same (fun _ => id) (fun _ hi => by cases hi) (fun _ hd => by cases hd)
      fun _ he => by cases he
  · cases h
    refine ⟨rfl, fun i hi => Or.inl (joined_setWrite s sid _ i hi), fun d hd => ?_⟩
    rcases mem_chainCalls hd with ⟨e, rfl⟩ | hd
    · exact succeeds_chain
    · exact succeeds_resumed hmay hd

/-- A read goes on with no message to deliver. -/
theorem succeeds_read {sid : Nat} {c d : ReadCall} {o : Outcome}
    (hd : ∀ i, (Call.reading sid d).delivers i = false) :
    Succeeds (.reading sid c) o (.reading sid d) := by
  refine succeeds_same (fun _ => id) (fun _ hi => by cases hi) (fun i hi => ?_)
    fun _ he => by cases he
  rw [hd i] at hi
  cases hi

theorem ran_reading {s s' : Shared} {rest cs : Multiset Call} {sid : Nat} {c : ReadCall}
    {o : Outcome} (h : readNext s rest sid c o = some (s', cs)) :
    Ran s (.reading sid c) o s' cs := by
  simp only [readNext] at h
  split at h
  · cases h
    refine ran_one rfl (fun _ => id) (succeeds_read fun i => ?_)
    rename_i op
    cases op <;> rfl
  · cases h
    exact ran_one rfl (joined_update (f := Session.withHeader _) fun _ => id)
      (succeeds_read fun _ => rfl)
  · cases h
    refine ran_one rfl (fun _ => id) ?_
    constructor
    · exact fun i hi => Or.inl hi
    · intro i hi
      obtain rfl : sid = i := beq_iff_eq.mp hi
      exact Or.inr ⟨_, rfl, rfl⟩
    · exact fun i hi => by cases hi
    · exact fun i he => by cases he
  · split at h <;> cases h
    exact ran_end rfl (joined_leave s sid)
  · cases h
    split
    · exact ran_one rfl (fun _ => id) (succeeds_read fun _ => rfl)
    · exact ran_end rfl fun _ => id
  · cases h
    exact ran_one rfl (fun _ => id) (succeeds_same (fun _ => id) (fun _ hi => by cases hi)
      (fun _ => id) fun _ he => by cases he)
  · cases h

/-- A message that is handed out, or a second look at the buffer. -/
theorem ran_handOut {s s' : Shared} {c : Call} {task : Task} {header : HDR} {o : Outcome}
    {r : Allocator × Allocated} {cs : Multiset Call}
    (hc : c = .allocate task header ∨ c = .allocateRetry task header)
    (h : handOut s task header r = (s', cs)) : Ran s c o s' cs := by
  have hsame : ∀ d, d = .allocateRetry task header ∨ (∃ msg, d = .inHand task msg) →
      Succeeds c o d := by
    rintro d (rfl | ⟨msg, rfl⟩) <;> rcases hc with rfl | rfl <;> cases task <;>
      exact succeeds_same (fun _ => id) (fun _ => id) (fun _ => id) fun _ he => by cases he
  obtain ⟨alloc, result⟩ := r
  cases result with
  | got p => cases h; exact ran_one rfl (fun _ => id) (hsame _ (Or.inr ⟨_, rfl⟩))
  | retry => cases h; exact ran_one rfl (fun _ => id) (hsame _ (Or.inl rfl))
  | badAlloc => cases h; exact ran_end rfl fun _ => id

/-- `write`, for a task that may write to the session. -/
theorem succeeds_write {task : Task} {msg : Ref} {sid : Nat} (hmay : task.MayWrite sid)
    (c : WriteCall Ref) : Succeeds (.inHand task msg) (.write sid) (.chain sid c (some task)) := by
  constructor
  · intro i hi
    cases task with
    | processMsg j =>
      obtain rfl : sid = j := hmay
      exact Or.inl (hi.imp id fun hi => by cases hi)
    | writeToAll header j todo =>
      obtain rfl : sid = j := hmay
      rcases hi with hi | hi
      · obtain rfl := Option.some.inj hi
        exact Or.inl (Or.inr List.mem_cons_self)
      · exact Or.inl (Or.inr (List.mem_cons_of_mem sid hi))
    | application =>
      rcases hi with hi | hi
      · obtain rfl := Option.some.inj hi
        exact Or.inr ⟨msg, rfl, rfl⟩
      · cases hi
  · intro i hi
    cases hi
  · intro i hi
    cases task with
    | writeToAll header j todo => exact List.mem_cons_of_mem j hi
    | _ => cases hi
  · intro i he
    cases he

theorem ran_inHand {s s' : Shared} {task : Task} {msg : Ref} {o : Outcome} {cs : Multiset Call}
    (h : inHandNext s task msg o = some (s', cs)) : Ran s (.inHand task msg) o s' cs := by
  cases o with
  | setBody mem data n =>
    simp only [inHandNext, Option.some.injEq, Prod.mk.injEq] at h
    obtain ⟨rfl, rfl⟩ := h
    split
    · exact ran_end rfl fun _ => id
    · exact ran_one rfl (fun _ => id) (succeeds_same (fun _ => id) (fun _ => id) (fun _ => id)
        fun _ he => by cases he)
  | write sid =>
    simp only [inHandNext] at h
    split at h <;> cases h
    rename_i hok
    exact ran_one rfl (joined_setWrite s sid _) (succeeds_write hok.1 _)
  | _ => cases h

/-- **What a section does** to the registry and which calls follow it. -/
theorem ran_of_next {s s' : Shared} {rest cs : Multiset Call} {c : Call} {o : Outcome}
    (hfine : c.Fine s) (h : next s rest c o = some (s', cs)) : Ran s c o s' cs := by
  have hone : ∀ {d : Call} {m : Shared}, m.created = s.created →
      (∀ i, (m.sessions i).joined = true → (s.sessions i).joined = true) →
      d.session = c.session → d.targets = [] → (∀ i, d.delivers i = false) →
      (∀ i, d ≠ .accepting i) → Ran s c o m {d} := by
    intro d m hm hj hd ht hdel ha
    refine ran_one hm hj (succeeds_same (fun i hi => hd ▸ hi) (fun i hi => ?_) (fun i hi => ?_) ha)
    · rw [ht] at hi
      cases hi
    · rw [hdel i] at hi
      cases hi
  cases c with
  | chain sid c task => exact ran_chain (fun t ht => hfine.task sid c t (by rw [ht])) h
  | reading sid c => exact ran_reading h
  | inHand task msg => exact ran_inHand h
  | dellocate sid msg =>
    simp only [next] at h
    split at h <;> cases h <;>
      exact hone rfl (fun _ => id) rfl rfl (fun _ => rfl) fun _ he => by cases he
  | dellocateRetry sid msg =>
    cases h
    exact hone rfl (fun _ => id) rfl rfl (fun _ => rfl) fun _ he => by cases he
  | dellocated sid msg =>
    cases h
    exact hone rfl (fun i hi => joined_setWrite s sid _ i
      (joined_update (f := Session.withLocked false) (fun _ => id) i hi)) rfl rfl (fun _ => rfl)
      fun _ he => by cases he
  | starting sid =>
    cases h
    exact hone rfl (fun _ => id) rfl rfl (fun _ => rfl) fun _ he => by cases he
  | accepting sid =>
    cases o with
    | go =>
      simp only [next] at h
      split at h <;> cases h
      refine ⟨rfl, fun i hi => ?_, fun d hd => ?_⟩
      · by_cases he : i = sid
        · rw [he]
          exact Or.inr rfl
        · rw [update_other s sid _ he] at hi
          exact Or.inl hi
      · rw [Multiset.mem_singleton.mp hd]
        exact succeeds_same (fun _ => id) (fun _ => id) (fun _ => id) fun _ he => by cases he
    | error =>
      simp only [next] at h
      split at h <;> cases h
      exact ran_end rfl (joined_leave s sid)
    | refused => cases h; exact ran_end rfl fun _ => id
    | _ => cases h
  | allocate task header =>
    cases o with
    | memory mem => exact ran_handOut (Or.inl rfl) (Option.some.inj h)
    | _ => cases h
  | allocateRetry task header =>
    cases o with
    | memory mem => exact ran_handOut (Or.inr rfl) (Option.some.inj h)
    | _ => cases h
  | broadcast header todo =>
    cases todo with
    | nil => cases h; exact ran_end rfl fun _ => id
    | cons sid todo =>
      cases h
      exact ran_one rfl (fun _ => id) (succeeds_same (fun _ hi => by cases hi) (fun _ => id)
        (fun _ hd => by cases hd) fun _ he => by cases he)

/-! ## Sessions that wait in `async_accept` -/

/-- Nothing else knows of a session before its accept has been handled. -/
structure Unaccepted (s : State) : Prop where
  targets : ∀ c ∈ s.calls, ∀ sid ∈ c.targets, sid < s.shared.created
  joined : ∀ sid, (s.shared.sessions sid).joined = true → sid < s.shared.created
  alone : ∀ sid, .accepting sid ∈ s.calls → s.calls.countP (Call.Concerns sid) = 1 ∧
    (s.shared.sessions sid).joined = false

theorem unaccepted_start : Unaccepted start where
  targets _ hc := absurd hc (Multiset.notMem_zero _)
  joined _ hj := by cases hj
  alone _ hc := absurd hc (Multiset.notMem_zero _)

theorem concerns_accepting (sid : Nat) : (Call.accepting sid).Concerns sid := Or.inl rfl

theorem Unaccepted.created {s : State} (hs : Sane s) (h : Unaccepted s) {c : Call}
    (hc : c ∈ s.calls) {sid : Nat} (hsid : c.Concerns sid) : sid < s.shared.created :=
  hsid.elim (fun hi => hs.created sid ((hs.calls c hc).alive sid hi)) (h.targets c hc sid)

/-- While the accept is pending, a call that is not the accept has nothing to do
with the session. -/
theorem Unaccepted.unconcerned {s : State} (h : Unaccepted s) {c : Call} {rest : Multiset Call}
    (hs : s.calls = c ::ₘ rest) {sid : Nat} (hacc : .accepting sid ∈ rest) :
    ¬ c.Concerns sid ∧ rest.countP (Call.Concerns sid) = 1 := by
  have hcount := (h.alone sid (hs ▸ Multiset.mem_cons_of_mem hacc)).1
  have hpos := Multiset.countP_pos.mpr ⟨_, hacc, concerns_accepting sid⟩
  rw [hs, Multiset.countP_cons] at hcount
  split at hcount
  · omega
  · rename_i hc
    exact ⟨hc, hcount⟩

theorem unaccepted_run {s : State} (hsane : Sane s) (h : Unaccepted s) {c : Call} {o : Outcome}
    {rest cs : Multiset Call} {s' : Shared} (hs : s.calls = c ::ₘ rest)
    (hknown : Known s (.run c o)) (hran : Ran s.shared c o s' cs) :
    Unaccepted ⟨s', cs + rest⟩ := by
  constructor
  · intro d hd sid hsid
    show sid < s'.created
    rw [hran.created]
    rcases Multiset.mem_add.mp hd with hd | hd
    · exact h.targets c (hs ▸ Multiset.mem_cons_self c rest) sid
        ((hran.calls d hd).targets sid hsid)
    · exact h.targets d (hs ▸ Multiset.mem_cons_of_mem hd) sid hsid
  · intro sid hj
    show sid < s'.created
    rcases hran.joined sid hj with hj | rfl
    · rw [hran.created]
      exact h.joined sid hj
    · rw [hran.created]
      exact h.created hsane (hs ▸ Multiset.mem_cons_self _ rest) (concerns_accepting sid)
  · intro sid hacc
    have hrest : .accepting sid ∈ rest := by
      rcases Multiset.mem_add.mp hacc with hd | hd
      · exact absurd rfl ((hran.calls _ hd).accepting sid)
      · exact hd
    obtain ⟨hc, hcount⟩ := h.unconcerned hs hrest
    have hnew : cs.countP (Call.Concerns sid) = 0 := by
      refine Multiset.countP_eq_zero.mpr fun d hd hsid => ?_
      rcases (hran.calls d hd).concerns sid hsid with hold | ⟨msg, rfl, rfl⟩
      · exact hc hold
      · have hmem : Call.accepting sid ∈ s.calls := hs ▸ Multiset.mem_cons_of_mem hrest
        have hearly := hknown
        simp only [Known, writesEarly, decide_eq_false_iff_not] at hearly
        exact hearly hmem
    refine ⟨?_, ?_⟩
    · show (cs + rest).countP _ = 1
      rw [Multiset.countP_add, hnew, hcount]
    · refine Bool.eq_false_of_not_eq_true fun hj => ?_
      rcases hran.joined sid hj with hj | rfl
      · rw [(h.alone sid (hs ▸ Multiset.mem_cons_of_mem hrest)).2] at hj
        cases hj
      · exact hc (concerns_accepting sid)

/-- A call enters that no session waiting in `async_accept` knows of. -/
theorem unaccepted_enters {s : State} (h : Unaccepted s) {s' : Shared} {cs : Multiset Call}
    (hcreated : s'.created = s.shared.created)
    (hjoined : ∀ i, (s'.sessions i).joined = true → (s.shared.sessions i).joined = true)
    (hcs : ∀ d ∈ cs, (∀ sid, d ≠ .accepting sid) ∧ d.session = none ∧
      ∀ sid ∈ d.targets, (s.shared.sessions sid).joined = true) :
    Unaccepted ⟨s', cs + s.calls⟩ := by
  constructor
  · intro d hd sid hsid
    show sid < s'.created
    rw [hcreated]
    rcases Multiset.mem_add.mp hd with hd | hd
    · exact h.joined sid ((hcs d hd).2.2 sid hsid)
    · exact h.targets d hd sid hsid
  · intro sid hj
    show sid < s'.created
    rw [hcreated]
    exact h.joined sid (hjoined sid hj)
  · intro sid hacc
    have hold : .accepting sid ∈ s.calls := by
      rcases Multiset.mem_add.mp hacc with hd | hd
      · exact absurd rfl ((hcs _ hd).1 sid)
      · exact hd
    obtain ⟨hcount, hout⟩ := h.alone sid hold
    have hnew : cs.countP (Call.Concerns sid) = 0 := by
      refine Multiset.countP_eq_zero.mpr fun d hd hsid => ?_
      rcases hsid with hsid | hsid
      · rw [(hcs d hd).2.1] at hsid
        cases hsid
      · have hj := (hcs d hd).2.2 sid hsid
        rw [hout] at hj
        cases hj
    constructor
    · show (cs + s.calls).countP _ = 1
      rw [Multiset.countP_add, hnew, hcount]
    · refine Bool.eq_false_of_not_eq_true fun hj => ?_
      rw [hjoined sid hj] at hout
      cases hout

theorem unaccepted_create {s : State} (hsane : Sane s) (h : Unaccepted s) :
    Unaccepted ⟨s.shared.create, {.accepting s.shared.created} + s.calls⟩ := by
  have hjoined : ∀ i, ((s.shared.create).sessions i).joined = true →
      (s.shared.sessions i).joined = true := fun i hi =>
    joined_update (f := Session.withAlive true) (fun _ => id) i hi
  constructor
  · intro d hd sid hsid
    rcases Multiset.mem_add.mp hd with hd | hd
    · rw [Multiset.mem_singleton.mp hd] at hsid
      cases hsid
    · exact Nat.lt_succ_of_lt (h.targets d hd sid hsid)
  · exact fun sid hj => Nat.lt_succ_of_lt (h.joined sid (hjoined sid hj))
  · intro sid hacc
    show ({Call.accepting s.shared.created} + s.calls).countP _ = 1 ∧ _
    rw [Multiset.singleton_add, Multiset.countP_cons]
    by_cases he : sid = s.shared.created
    · -- no call knows of the new session
      subst he
      have hnone : s.calls.countP (Call.Concerns s.shared.created) = 0 :=
        Multiset.countP_eq_zero.mpr fun c hc hsid =>
          absurd (h.created hsane hc hsid) (Nat.lt_irrefl _)
      rw [hnone, if_pos (concerns_accepting _)]
      refine ⟨rfl, Bool.eq_false_of_not_eq_true fun hj => ?_⟩
      exact absurd (h.joined _ (hjoined _ hj)) (Nat.lt_irrefl _)
    · have hother : ¬ (Call.accepting s.shared.created).Concerns sid := by
        rintro (hi | hi)
        · exact he (Option.some.inj hi).symm
        · cases hi
      have hold : .accepting sid ∈ s.calls := by
        rcases Multiset.mem_add.mp hacc with hd | hd
        · exact absurd (concerns_accepting sid) (Multiset.mem_singleton.mp hd ▸ hother)
        · exact hd
      rw [if_neg hother]
      refine ⟨(h.alone sid hold).1, Bool.eq_false_of_not_eq_true fun hj => ?_⟩
      have hout := (h.alone sid hold).2
      rw [hjoined sid hj] at hout
      cases hout

theorem unaccepted_step {s t : State} {a : Action} (hsane : Sane s) (h : Unaccepted s)
    (hknown : Known s a) (hstep : step s a = some t) : Unaccepted t := by
  obtain ⟨t', calls⟩ := t
  have hnone : ∀ (d : Call), d ∈ (0 : Multiset Call) → False := fun d hd =>
    Multiset.notMem_zero d hd
  cases a with
  | run c o =>
    obtain ⟨rest, cs, hs, hcs, ht⟩ := Program.step_run hstep
    simp only at hcs ht
    subst ht
    have hfine := hsane.calls c (hs ▸ Multiset.mem_cons_self c rest)
    exact unaccepted_run hsane h hs hknown (ran_of_next hfine hcs)
  | enter e =>
    obtain ⟨cs, hcs, ht⟩ := Program.step_enter hstep
    simp only at hcs ht
    subst ht
    cases e with
    | create => cases hcs; exact unaccepted_create hsane h
    | application header =>
      cases hcs
      refine unaccepted_enters h rfl (fun _ => id) fun d hd => ?_
      rw [Multiset.mem_singleton.mp hd]
      exact ⟨fun _ he => (by cases he), rfl, fun _ hi => (by cases hi)⟩
    | writeToAll header =>
      cases hcs
      refine unaccepted_enters h rfl (fun _ => id) fun d hd => ?_
      rw [Multiset.mem_singleton.mp hd]
      exact ⟨fun _ he => (by cases he), rfl, fun sid hi => (List.mem_filter.mp hi).2⟩
    | stop =>
      simp only [program, enter] at hcs
      split at hcs <;> cases hcs
      exact unaccepted_enters h rfl (fun _ hj => by cases hj) fun d hd => absurd hd (hnone d)
    | clearBuffer =>
      simp only [program, enter] at hcs
      split at hcs <;> cases hcs
      exact unaccepted_enters h rfl (fun _ => id) fun d hd => absurd hd (hnone d)
    | destroy sid =>
      simp only [program, enter] at hcs
      split at hcs <;> cases hcs
      exact unaccepted_enters h rfl (joined_update (f := Session.withAlive false) fun _ => id)
        fun d hd => absurd hd (hnone d)

theorem unaccepted_of_reach {s : State} (h : Reach step Known start s) : Unaccepted s :=
  h.invariant unaccepted_start fun _ _ _ hr hs hok hstep =>
    unaccepted_step (sane_of_reach hr) hs hok hstep

/-! ## After the session has left -/

/-- The session is off the list, and no call has anything for it. -/
structure Left (sid : Nat) (s : State) : Prop where
  created : sid < s.shared.created
  out : (s.shared.sessions sid).joined = false
  received : NothingReceived s sid
  targets : ∀ c ∈ s.calls, sid ∉ c.targets
  accepting : .accepting sid ∉ s.calls

/-- Whoever has sessions to write to holds the lock of the registry. -/
theorem targets_free {c : Call} (h : c.holdsRegistry = false) : c.targets = [] := by
  match c, h with
  | .chain _ _ none, _ | .chain _ _ (some (.processMsg _)), _ => rfl
  | .chain _ _ (some .application), _ => rfl
  | .dellocate _ _, _ | .dellocateRetry _ _, _ | .dellocated _ _, _ => rfl
  | .reading _ _, _ | .accepting _, _ | .starting _, _ => rfl
  | .allocate (.processMsg _) _, _ | .allocate .application _, _ => rfl
  | .allocateRetry (.processMsg _) _, _ | .allocateRetry .application _, _ => rfl
  | .inHand (.processMsg _) _, _ | .inHand .application _, _ => rfl

theorem left_of_run {s : State} {c : Call} {rest : Multiset Call} {sid : Nat} (hsane : Sane s)
    (h : Unaccepted s) (hs : s.calls = c ::ₘ rest) (hc : c.session = some sid)
    (hnone : NothingReceived s sid) (hfree : RegistryFree rest) :
    Left sid ⟨s.shared.leave sid, 0 + rest⟩ := by
  have hmem : c ∈ s.calls := hs ▸ Multiset.mem_cons_self c rest
  rw [Multiset.zero_add]
  constructor
  · exact h.created hsane hmem (Or.inl hc)
  · exact congrArg Session.joined (update_self s.shared sid (Session.withJoined false))
  · exact fun d hd => hnone d (hs ▸ Multiset.mem_cons_of_mem hd)
  · intro d hd
    rw [targets_free (hfree d hd)]
    exact List.not_mem_nil
  · exact fun hacc => (h.unconcerned hs hacc).1 (Or.inl hc)

theorem leavesSession_cases {sid : Nat} {a : Action} (h : leavesSession sid a = true) :
    (∃ part task o, a = .run (.chain sid (.handler part true) task) o) ∨
      ∃ part o, a = .run (.reading sid (.handler part true)) o := by
  unfold leavesSession at h
  split at h
  · rename_i i part task o
    obtain rfl : i = sid := beq_iff_eq.mp h
    exact Or.inl ⟨part, task, o, rfl⟩
  · rename_i i part o
    obtain rfl : i = sid := beq_iff_eq.mp h
    exact Or.inr ⟨part, o, rfl⟩
  · cases h

/-- The error branch takes the session off the list. -/
theorem left_of_leaves {s t : State} {a : Action} {sid : Nat} (hsane : Sane s) (h : Unaccepted s)
    (hstep : step s a = some t) (hleaves : leavesSession sid a = true)
    (hnone : NothingReceived s sid) : Left sid t := by
  obtain ⟨t', calls⟩ := t
  obtain ⟨part, task, o, rfl⟩ | ⟨part, o, rfl⟩ := leavesSession_cases hleaves
  · obtain ⟨rest, cs, hs, hcs, ht⟩ := Program.step_run hstep
    simp only [program, next, chainNext] at hcs ht
    subst ht
    split at hcs
    · cases hcs
    split at hcs <;> cases hcs
    rename_i hfree
    exact left_of_run hsane h hs rfl hnone hfree
  · obtain ⟨rest, cs, hs, hcs, ht⟩ := Program.step_run hstep
    have hleave : (if RegistryFree rest then some (s.shared.leave sid, 0) else none) =
        some (t', cs) := by cases o <;> exact hcs
    simp only at ht
    subst ht
    split at hleave <;> cases hleave
    rename_i hfree
    exact left_of_run hsane h hs rfl hnone hfree

/-- Nothing is added to the queue of a session. -/
structure OnlyPops (w w' : WriteSide Ref) : Prop where
  pushed : w'.pushed = w.pushed
  queue : w'.msgQueue <:+ w.msgQueue

theorem onlyPops_refl (w : WriteSide Ref) : OnlyPops w w := ⟨rfl, List.suffix_refl _⟩

theorem OnlyPops.trans {w w' w'' : WriteSide Ref} (h : OnlyPops w w') (h' : OnlyPops w' w'') :
    OnlyPops w w'' := ⟨h'.pushed.trans h.pushed, h'.queue.trans h.queue⟩

theorem onlyPops_handlerWriteBody (w : WriteSide Ref) : OnlyPops w w.handlerWriteBody := by
  unfold WriteSide.handlerWriteBody
  split
  · exact ⟨rfl, List.suffix_refl _⟩
  · rename_i msg rest hq
    refine ⟨rfl, ?_⟩
    rw [hq]
    exact List.suffix_cons msg rest

theorem onlyPops_next (w : WriteSide Ref) (c : WriteCall Ref) (error : Bool) :
    OnlyPops w (SessionWrite.next w c error).1 := by
  cases c with
  | writeOnEmpty | writeQueued => exact onlyPops_refl w
  | doWrite caller =>
    simp only [SessionWrite.next, WriteSide.doWrite]
    split <;> exact ⟨rfl, List.suffix_refl _⟩
  | asyncWrite op => cases error <;> exact ⟨rfl, List.suffix_refl _⟩
  | handler part e =>
    cases e with
    | true => exact onlyPops_refl w
    | false =>
      cases part with
      | header =>
        simp only [SessionWrite.next, WriteSide.handlerWriteHeader]
        split <;> exact ⟨rfl, List.suffix_refl _⟩
      | body => exact onlyPops_handlerWriteBody w

/-- A session whose write side is updated by pops, or not at all. -/
theorem onlyPops_setWrite (s : Shared) (i : Nat) {w : WriteSide Ref}
    (h : OnlyPops (s.sessions i).write w) (sid : Nat) :
    OnlyPops (s.sessions sid).write ((s.setWrite i w).sessions sid).write :=
  update_rel s i (Session.withWrite w) (fun x y => OnlyPops x.write y.write)
    (fun _ => onlyPops_refl _) h sid

/-- A queue grows only by the `write` of a task that may write to the session. -/
theorem onlyPops_of_effect {s t : State} {a : Action} (he : Effect s a t) (sid : Nat)
    (hwrite : ∀ task msg, a = .run (.inHand task msg) (.write sid) → ¬ task.MayWrite sid) :
    OnlyPops (s.shared.sessions sid).write (t.shared.sessions sid).write := by
  have hsame : ∀ {s' : Shared}, (s'.sessions sid).write = (s.shared.sessions sid).write →
      OnlyPops (s.shared.sessions sid).write (s'.sessions sid).write := fun h => by
    rw [h]
    exact onlyPops_refl _
  cases he with
  | quiet hq => exact hsame (hq.write sid)
  | create =>
    exact hsame (update_rel s.shared _ (Session.withAlive true)
      (fun x y => y.write = x.write) (fun _ => rfl) rfl sid)
  | clear => exact onlyPops_refl _
  | destroy =>
    exact hsame (update_rel s.shared _ (Session.withAlive false)
      (fun x y => y.write = x.write) (fun _ => rfl) rfl sid)
  | chain => exact onlyPops_setWrite s.shared _ (onlyPops_next _ _ _) sid
  | chainLeave => exact hsame ((quiet_leave s.shared _).write sid)
  | lock =>
    exact hsame (update_rel s.shared _ (Session.withLocked true)
      (fun x y => y.write = x.write) (fun _ => rfl) rfl sid)
  | taken | retry | stored | setBody => exact onlyPops_refl _
  | @popped i msg o rest hs =>
    refine (onlyPops_setWrite s.shared i (onlyPops_handlerWriteBody _) sid).trans ?_
    exact update_rel _ i (Session.withLocked false) (fun x y => OnlyPops x.write y.write)
      (fun _ => onlyPops_refl _) (onlyPops_refl _) sid
  | @given c task header mem r rest hs hr =>
    obtain ⟨alloc, result⟩ := r
    cases result <;> exact onlyPops_refl _
  | @pushed task msg i rest hs hmay =>
    by_cases he : i = sid
    · subst he
      exact absurd hmay (hwrite task msg rfl)
    · exact hsame (congrArg Session.write
        (update_other s.shared i (Session.withWrite _) (Ne.symm he)))

theorem left_run {s : State} {sid : Nat} (h : Left sid s) {c : Call} {o : Outcome}
    {rest cs : Multiset Call} {s' : Shared} (hs : s.calls = c ::ₘ rest)
    (hok : Unreached sid s (.run c o)) (hran : Ran s.shared c o s' cs) :
    Left sid ⟨s', cs + rest⟩ := by
  have hc : c ∈ s.calls := hs ▸ Multiset.mem_cons_self c rest
  have hrest : ∀ d ∈ rest, d ∈ s.calls := fun d hd => hs ▸ Multiset.mem_cons_of_mem hd
  constructor
  · exact hran.created ▸ h.created
  · refine Bool.eq_false_of_not_eq_true fun hj => ?_
    rcases hran.joined sid hj with hj | rfl
    · rw [h.out] at hj
      cases hj
    · exact h.accepting hc
  · intro d hd
    rcases Multiset.mem_add.mp hd with hd | hd
    · refine Bool.eq_false_of_not_eq_true fun hdel => ?_
      rcases (hran.calls d hd).delivers sid hdel with hold | ⟨n, rfl, rfl⟩
      · rw [h.received c hc] at hold
        cases hold
      · simp [Unreached, reaches] at hok
    · exact h.received d (hrest d hd)
  · intro d hd hsid
    rcases Multiset.mem_add.mp hd with hd | hd
    · exact h.targets c hc ((hran.calls d hd).targets sid hsid)
    · exact h.targets d (hrest d hd) hsid
  · intro hacc
    rcases Multiset.mem_add.mp hacc with hd | hd
    · exact (hran.calls _ hd).accepting sid rfl
    · exact h.accepting (hrest _ hd)

theorem left_enters {s : State} {sid : Nat} (h : Left sid s) {s' : Shared} {cs : Multiset Call}
    (hcreated : s.shared.created ≤ s'.created)
    (hjoined : ∀ i, (s'.sessions i).joined = true → (s.shared.sessions i).joined = true)
    (hcs : ∀ d ∈ cs, d.delivers sid = false ∧ sid ∉ d.targets ∧ d ≠ .accepting sid) :
    Left sid ⟨s', cs + s.calls⟩ := by
  constructor
  · exact Nat.lt_of_lt_of_le h.created hcreated
  · refine Bool.eq_false_of_not_eq_true fun hj => ?_
    have hout := h.out
    rw [hjoined sid hj] at hout
    cases hout
  · exact fun d hd => (Multiset.mem_add.mp hd).elim (fun hd => (hcs d hd).1) (h.received d)
  · exact fun d hd => (Multiset.mem_add.mp hd).elim (fun hd => (hcs d hd).2.1) (h.targets d)
  · exact fun hd => (Multiset.mem_add.mp hd).elim (fun hd => (hcs _ hd).2.2 rfl) h.accepting

theorem left_step {s t : State} {a : Action} {sid : Nat} (hsane : Sane s) (h : Left sid s)
    (hok : Unreached sid s a) (hstep : step s a = some t) : Left sid t := by
  obtain ⟨t', calls⟩ := t
  cases a with
  | run c o =>
    obtain ⟨rest, cs, hs, hcs, ht⟩ := Program.step_run hstep
    simp only at hcs ht
    subst ht
    have hfine := hsane.calls c (hs ▸ Multiset.mem_cons_self c rest)
    exact left_run h hs hok (ran_of_next hfine hcs)
  | enter e =>
    obtain ⟨cs, hcs, ht⟩ := Program.step_enter hstep
    simp only at hcs ht
    subst ht
    cases e with
    | create =>
      cases hcs
      refine left_enters h (Nat.le_succ _)
        (joined_update (f := Session.withAlive true) fun _ => id) fun d hd => ?_
      rw [Multiset.mem_singleton.mp hd]
      refine ⟨rfl, List.not_mem_nil, fun he => ?_⟩
      cases he
      exact Nat.lt_irrefl _ h.created
    | application header =>
      cases hcs
      refine left_enters h le_rfl (fun _ => id) fun d hd => ?_
      rw [Multiset.mem_singleton.mp hd]
      exact ⟨rfl, List.not_mem_nil, fun he => by cases he⟩
    | writeToAll header =>
      cases hcs
      refine left_enters h le_rfl (fun _ => id) fun d hd => ?_
      rw [Multiset.mem_singleton.mp hd]
      refine ⟨rfl, fun hi => ?_, fun he => by cases he⟩
      have hj := (List.mem_filter.mp hi).2
      rw [h.out] at hj
      cases hj
    | stop =>
      simp only [program, enter] at hcs
      split at hcs <;> cases hcs
      exact left_enters h le_rfl (fun _ hj => by cases hj)
        fun d hd => absurd hd (Multiset.notMem_zero d)
    | clearBuffer =>
      simp only [program, enter] at hcs
      split at hcs <;> cases hcs
      exact left_enters h le_rfl (fun _ => id) fun d hd => absurd hd (Multiset.notMem_zero d)
    | destroy i =>
      simp only [program, enter] at hcs
      split at hcs <;> cases hcs
      exact left_enters h le_rfl (joined_update (f := Session.withAlive false) fun _ => id)
        fun d hd => absurd hd (Multiset.notMem_zero d)

/-- Nobody has a message for the session to write. -/
theorem left_onlyPops {s t : State} {a : Action} {sid : Nat} (h : Left sid s)
    (hok : Unreached sid s a) (hstep : step s a = some t) :
    OnlyPops (s.shared.sessions sid).write (t.shared.sessions sid).write := by
  refine onlyPops_of_effect (effect_of_step hstep) sid fun task msg ha hmay => ?_
  subst ha
  obtain ⟨rest, cs, hs, -⟩ := Program.step_run hstep
  have hc : Call.inHand task msg ∈ s.calls := hs ▸ Multiset.mem_cons_self _ rest
  cases task with
  | processMsg i =>
    obtain rfl : sid = i := hmay
    have hidle := h.received _ hc
    simp [Call.delivers] at hidle
  | writeToAll header i todo =>
    obtain rfl : sid = i := hmay
    exact h.targets _ hc List.mem_cons_self
  | application => simp [Unreached, reaches] at hok

/-- **A session that has left** is done when it had no message under way, no
later body read of it succeeds and nobody from outside writes to it. -/
theorem left_unserved (sid : Nat) (s t u : State) (a : Action) (hs : Reach step Known start s)
    (hstep : step s a = some t) (hleaves : leavesSession sid a = true)
    (hnone : NothingReceived s sid) (hu : Reach step (Unreached sid) t u) : Unserved sid t u := by
  have hs' : Reach step always start s := hs.mono fun _ _ _ => trivial
  have hsane : Sane t := sane_of_reach (hs'.tail trivial hstep)
  have hleft := left_of_leaves (sane_of_reach hs) (unaccepted_of_reach hs) hstep hleaves hnone
  have hrun : Sane u ∧ Left sid u ∧
      OnlyPops (t.shared.sessions sid).write (u.shared.sessions sid).write := by
    refine hu.invariant (P := fun u => Sane u ∧ Left sid u ∧
      OnlyPops (t.shared.sessions sid).write (u.shared.sessions sid).write) ?_ ?_
    · exact ⟨hsane, hleft, onlyPops_refl _⟩
    · intro v b w _ ⟨hv, hleft, hpops⟩ hok hvw
      exact ⟨sane_step hv (effect_of_step hvw), left_step hv hleft hok hvw,
        hpops.trans (left_onlyPops hleft hok hvw)⟩
  obtain ⟨-, hleft, hpops⟩ := hrun
  refine ⟨hleft.out, fun o => if_neg fun hc => ?_, hpops.pushed, hpops.queue⟩
  have hidle := hleft.received _ hc
  simp [Call.delivers] at hidle

/-- A message arrives at the session, is processed and goes to its queue. -/
def receives (sid : Nat) (header : HDR) (msg : Ref) : List Action :=
  [.run (.reading sid (.asyncRead .header)) (.received header),
    .run (.reading sid (.handler .header false)) (.memory .unlimited),
    .run (.reading sid (.asyncRead (.body header.len))) .go,
    .run (.reading sid (.handler .body false)) .go,
    .run (.allocate (.processMsg sid) header) (.memory .unlimited),
    .run (.inHand (.processMsg sid) msg) (.setBody .unlimited [1] 1),
    .run (.inHand (.processMsg sid) msg) (.write sid)]

/-- The session echoes a message, and the write of the header fails. -/
def failsToEcho (sid : Nat) (header : HDR) (msg : Ref) : List Action :=
  connects sid ++ receives sid header msg ++
    [.run (.chain sid (.writeOnEmpty msg) (some (.processMsg sid))) .go,
      .run (.chain sid (.doWrite .write) (some (.processMsg sid))) .go,
      .run (.chain sid (.asyncWrite ⟨.header, msg⟩) none) .error]

/-- The error branch of `handler_write_header`. -/
def writeHeaderFails (sid : Nat) : Action := .run (.chain sid (.handler .header true) none) .go

/-- After the failed write the peer sends one more header, and is gone. -/
theorem left_unserved_one : ∃ s t u : State, step s (writeHeaderFails 0) = some t ∧
    (u.shared.sessions 0).write.msgQueue = [⟨0, 0⟩] ∧ Unserved 0 t u := by
  let header : HDR := ⟨1, 0, 0, 0, 0, 0⟩
  let after : List Action := [.run (.reading 0 (.asyncRead .header)) (.received header),
    .run (.reading 0 (.handler .header false)) (.memory .unlimited),
    .run (.reading 0 (.asyncRead (.body 1))) .error]
  have hrun : ((exec (guarded step Known) start (failsToEcho 0 header ⟨0, 0⟩)).bind fun s =>
      (step s (writeHeaderFails 0)).bind fun t => (exec (guarded step (Unreached 0)) t after).map
        fun u => (decide (NothingReceived s 0), (u.shared.sessions 0).write.msgQueue)) =
      some (true, [⟨0, 0⟩]) := by
    decide +kernel
  obtain ⟨s, hs, hrun⟩ := Option.bind_eq_some_iff.mp hrun
  obtain ⟨t, ht, hrun⟩ := Option.bind_eq_some_iff.mp hrun
  obtain ⟨u, hu, hseen⟩ := Option.map_eq_some_iff.mp hrun
  obtain ⟨hnone, hqueue⟩ := Prod.mk.inj hseen
  exact ⟨s, t, u, ht, hqueue, left_unserved 0 s t u (writeHeaderFails 0)
    (Reach.of_exec_guarded _ hs) ht rfl (of_decide_eq_true hnone) (Reach.of_exec_guarded _ hu)⟩

/-- After the failed write the peer sends one more message: it is processed,
and added to a queue that nothing will take it from. -/
theorem left_served : ∃ s t u : State, Reach step Known start s ∧
    step s (writeHeaderFails 0) = some t ∧ NothingReceived s 0 ∧ Reach step always t u ∧
    (u.shared.sessions 0).write.msgQueue = [⟨0, 0⟩, ⟨2, 1⟩] ∧ ¬ Unserved 0 t u := by
  let header : HDR := ⟨1, 0, 0, 0, 0, 0⟩
  have hrun : ((exec (guarded step Known) start (failsToEcho 0 header ⟨0, 0⟩)).bind fun s =>
      (step s (writeHeaderFails 0)).bind fun t => (exec step t (receives 0 header ⟨2, 1⟩)).map
        fun u => (decide (NothingReceived s 0), (t.shared.sessions 0).write.msgQueue,
          (u.shared.sessions 0).write.msgQueue)) =
      some (true, [⟨0, 0⟩], [⟨0, 0⟩, ⟨2, 1⟩]) := by
    decide +kernel
  obtain ⟨s, hs, hrun⟩ := Option.bind_eq_some_iff.mp hrun
  obtain ⟨t, ht, hrun⟩ := Option.bind_eq_some_iff.mp hrun
  obtain ⟨u, hu, hseen⟩ := Option.map_eq_some_iff.mp hrun
  obtain ⟨hnone, hqueues⟩ := Prod.mk.inj hseen
  obtain ⟨hbefore, hafter⟩ := Prod.mk.inj hqueues
  refine ⟨s, t, u, Reach.of_exec_guarded _ hs, ht, of_decide_eq_true hnone, Reach.of_exec _ hu,
    hafter, fun hserved => ?_⟩
  have hqueue := hserved.queue
  rw [hbefore, hafter] at hqueue
  exact absurd hqueue.length_le (by decide)

end AsioTcp.Manager
