import AsioTcp.ManagerEffect
import Mathlib.Data.Multiset.Count

/-!
# Sessions that come and go, and their locks

`Sane` says that what a call refers to is there: its session has not been
destroyed, and a session is locked exactly when one `handler_write_body` is
giving back its front message. Every state that the threads can reach is sane.
-/

namespace AsioTcp.Manager

open Transition

/-- The call holds the lock of session `sid` to give back its front message. -/
def Call.locks (sid : Nat) : Call → Bool
  | .dellocate i _ | .dellocateRetry i _ | .dellocated i _ => i == sid
  | _ => false

section Update

variable (s : Shared) (sid : Nat) (f : Session → Session)

theorem update_self : (s.update sid f).sessions sid = f (s.sessions sid) := if_pos rfl

theorem update_other {i : Nat} (h : i ≠ sid) : (s.update sid f).sessions i = s.sessions i :=
  if_neg h

/-- A property that the update keeps holds of each session afterwards. -/
theorem update_rel (P : Session → Session → Prop) (hrefl : ∀ x, P x x)
    (hf : P (s.sessions sid) (f (s.sessions sid))) (i : Nat) :
    P (s.sessions i) ((s.update sid f).sessions i) := by
  by_cases h : i = sid
  · subst h
    rw [update_self]
    exact hf
  · rw [update_other s sid f h]
    exact hrefl _

end Update

/-- What a call refers to is there. -/
structure Call.Fine (s : Shared) (c : Call) : Prop where
  alive : ∀ sid, c.session = some sid → (s.sessions sid).alive = true
  task : ∀ sid d task, c = .chain sid d (some task) → task.MayWrite sid

structure Sane (s : State) : Prop where
  created : ∀ i, (s.shared.sessions i).alive = true → i < s.shared.created
  unborn : ∀ i, s.shared.created ≤ i → (s.shared.sessions i).write = .init
  calls : ∀ c ∈ s.calls, c.Fine s.shared
  locked : ∀ i, s.calls.countP (fun c => c.locks i = true) =
    if (s.shared.sessions i).locked then 1 else 0

theorem Call.Fine.mono {s s' : Shared} {c : Call} (h : c.Fine s)
    (ha : ∀ i, (s.sessions i).alive = true → (s'.sessions i).alive = true) : c.Fine s' :=
  ⟨fun sid hs => ha sid (h.alive sid hs), h.task⟩

theorem fine_plain {s : Shared} {c : Call} (hc : c.plain = true)
    (ha : ∀ sid, c.session = some sid → (s.sessions sid).alive = true) : c.Fine s := by
  refine ⟨ha, fun sid d task he => ?_⟩
  subst he
  cases hc

theorem locks_plain {c : Call} (hc : c.plain = true) (i : Nat) : c.locks i = false := by
  cases c <;> first | rfl | cases hc

theorem locks_chain (sid : Nat) (c : WriteCall Ref) (task : Option Task) (i : Nat) :
    (Call.chain sid c task).locks i = false := rfl

theorem resumed_plain {c : WriteCall Ref} {task : Option Task} {d : Call}
    (hd : d ∈ resumed c task) : d.plain = true := by
  have hresume : ∀ t : Task, d ∈ t.resume → d.plain = true := by
    intro t ht
    cases t <;> simp [Task.resume] at ht <;> subst ht <;> rfl
  cases task with
  | none => cases c <;> simp [resumed] at hd
  | some t =>
    cases c with
    | writeOnEmpty msg => simp [resumed] at hd
    | _ => exact hresume t hd

/-- The task that goes on belongs to the session in which it has written. -/
theorem resumed_session {c : WriteCall Ref} {task : Option Task} {d : Call} {sid i : Nat}
    (hd : d ∈ resumed c task) (hmay : ∀ t, task = some t → t.MayWrite sid)
    (hi : d.session = some i) : i = sid := by
  have hresume : ∀ t : Task, t.MayWrite sid → d ∈ t.resume → i = sid := by
    intro t ht hd
    cases t with
    | processMsg sid' =>
      simp only [Task.resume, Multiset.mem_singleton] at hd
      subst hd
      simp only [Call.session, Option.some.injEq] at hi
      exact hi.symm.trans ht.symm
    | writeToAll header sid' todo =>
      simp only [Task.resume, Multiset.mem_singleton] at hd
      subst hd
      cases hi
    | application => exact absurd hd (Multiset.notMem_zero d)
  cases task with
  | none => cases c <;> simp [resumed] at hd
  | some t =>
    cases c with
    | writeOnEmpty msg => simp [resumed] at hd
    | _ => exact hresume t (hmay t rfl) hd

theorem carried_task {c : WriteCall Ref} {task : Option Task} {t : Task}
    (h : carried c task = some t) : task = some t := by
  cases c <;> first | exact h | cases h

theorem countP_locks_plain {calls : Multiset Call} (h : ∀ c ∈ calls, c.plain = true) (i : Nat) :
    calls.countP (fun c => c.locks i = true) = 0 := by
  refine Multiset.countP_eq_zero.mpr fun c hc => ?_
  rw [locks_plain (h c hc)]
  exact Bool.false_ne_true

theorem countP_locks_one (d : Call) (i : Nat) :
    ({d} : Multiset Call).countP (fun c => c.locks i = true) = if d.locks i then 1 else 0 :=
  Interleaving.countP_one _ d

/-- Sessions and their locks are untouched, and so are the calls that hold
locks: it is enough to look at the calls that are new. -/
theorem Sane.keep {s : State} (h : Sane s) {s' : Shared} {c : Call} {rest : Multiset Call}
    (new : Multiset Call) (hs : s.calls = c ::ₘ rest) (hcreated : s'.created = s.shared.created)
    (hsess : ∀ i, (s'.sessions i).write = (s.shared.sessions i).write ∨ i < s'.created)
    (halive : ∀ i, (s'.sessions i).alive = (s.shared.sessions i).alive)
    (hlocked : ∀ i, (s'.sessions i).locked = (s.shared.sessions i).locked)
    (hcount : ∀ i, new.countP (fun d => d.locks i = true) = if c.locks i then 1 else 0)
    (hnew : ∀ d ∈ new, d.Fine s') : Sane ⟨s', new + rest⟩ where
  created i hi := by
    rw [hcreated]
    exact h.created i ((halive i).symm.trans hi)
  unborn i hi := by
    rcases hsess i with hw | hlt
    · rw [hw]
      exact h.unborn i (hcreated ▸ hi)
    · exact absurd hlt (Nat.not_lt.mpr hi)
  calls d hd := by
    rcases Multiset.mem_add.mp hd with hd | hd
    · exact hnew d hd
    · refine (h.calls d ?_).mono fun i hi => (halive i).trans hi
      rw [hs]
      exact Multiset.mem_cons_of_mem hd
  locked i := by
    have hold := h.locked i
    rw [hs, Multiset.countP_cons] at hold
    show (new + rest).countP _ = if (s'.sessions i).locked then 1 else 0
    rw [Multiset.countP_add, hcount i, hlocked i, ← hold]
    exact Nat.add_comm _ _

theorem sane_start : Sane start where
  created _ hi := by cases hi
  unborn _ _ := rfl
  calls c hc := absurd hc (Multiset.notMem_zero c)
  locked _ := rfl

theorem sane_quiet {s : State} (h : Sane s) {s' : Shared} {old new rest : Multiset Call}
    (hq : Quiet s.shared s') (hs : s.calls = old + rest) (hp : PlainStep old new) :
    Sane ⟨s', new + rest⟩ where
  created i hi := by
    rw [hq.created]
    exact h.created i ((hq.alive i).symm.trans hi)
  unborn i hi := (hq.write i).trans (h.unborn i (hq.created ▸ hi))
  calls c hc := by
    rcases Multiset.mem_add.mp hc with hc | hc
    · obtain ⟨hplain, hsession⟩ := hp.after c hc
      refine fine_plain hplain fun sid hsid => ?_
      rcases hsession with hnone | ⟨d, hd, hds⟩
      · rw [hnone] at hsid
        cases hsid
      · rw [hq.alive]
        refine (h.calls d ?_).alive sid (hds.trans hsid)
        rw [hs]
        exact Multiset.mem_add.mpr (Or.inl hd)
    · refine (h.calls c ?_).mono fun i hi => (hq.alive i).trans hi
      rw [hs]
      exact Multiset.mem_add.mpr (Or.inr hc)
  locked i := by
    have hold := h.locked i
    rw [hs, Multiset.countP_add, countP_locks_plain hp.before] at hold
    show (new + rest).countP _ = if (s'.sessions i).locked then 1 else 0
    rw [Multiset.countP_add, countP_locks_plain (fun c hc => (hp.after c hc).1), hq.locked, hold]

theorem sane_create {s : State} (h : Sane s) :
    Sane ⟨s.shared.create, .accepting s.shared.created ::ₘ s.calls⟩ where
  created i hi := by
    by_cases he : i = s.shared.created
    · exact Nat.lt_succ_of_le he.le
    · refine Nat.lt_succ_of_lt (h.created i ?_)
      rw [← update_other s.shared s.shared.created (Session.withAlive true) he]
      exact hi
  unborn i hi := by
    have hlt : s.shared.created < i := hi
    show ((s.shared.update s.shared.created (Session.withAlive true)).sessions i).write = .init
    rw [update_other _ _ _ (Nat.ne_of_gt hlt)]
    exact h.unborn i (Nat.le_of_lt hlt)
  calls c hc := by
    rcases Multiset.mem_cons.mp hc with rfl | hc
    · refine fine_plain rfl fun sid hsid => ?_
      obtain rfl := Option.some.inj hsid
      exact congrArg Session.alive (update_self s.shared s.shared.created (Session.withAlive true))
    · refine (h.calls c hc).mono fun i hi => ?_
      exact update_rel s.shared s.shared.created (Session.withAlive true)
        (fun x y => x.alive = true → y.alive = true) (fun _ h => h) (fun _ => rfl) i hi
  locked i := by
    rw [Multiset.countP_cons_of_neg _ (by exact Bool.false_ne_true), h.locked i]
    have hl := update_rel s.shared s.shared.created (Session.withAlive true)
      (fun x y => y.locked = x.locked) (fun _ => rfl) rfl i
    show _ = if ((s.shared.update s.shared.created (Session.withAlive true)).sessions i).locked
      then 1 else 0
    rw [hl]

theorem sane_destroy {s : State} (h : Sane s) {sid : Nat}
    (hfree : ∀ c ∈ s.calls, c.session ≠ some sid) :
    Sane ⟨s.shared.update sid (Session.withAlive false), s.calls⟩ where
  created i hi := by
    apply h.created i
    exact update_rel s.shared sid (Session.withAlive false) (fun x y => y.alive = true → x.alive = true)
      (fun _ h => h) (fun hn => Bool.noConfusion hn) i hi
  unborn i hi := by
    rw [← h.unborn i hi]
    exact update_rel s.shared sid (Session.withAlive false) (fun x y => y.write = x.write)
      (fun _ => rfl) rfl i
  calls c hc := by
    refine ⟨fun i hi => ?_, (h.calls c hc).task⟩
    have hne : i ≠ sid := by
      rintro rfl
      exact hfree c hc hi
    show ((s.shared.update sid (Session.withAlive false)).sessions i).alive = true
    rw [update_other s.shared sid _ hne]
    exact (h.calls c hc).alive i hi
  locked i := by
    rw [h.locked i]
    have hl := update_rel s.shared sid (Session.withAlive false)
      (fun x y => y.locked = x.locked) (fun _ => rfl) rfl i
    show _ = if ((s.shared.update sid (Session.withAlive false)).sessions i).locked then 1 else 0
    rw [hl]

theorem Sane.alive_of_call {s : State} (h : Sane s) {c : Call} {rest : Multiset Call}
    (hs : s.calls = c ::ₘ rest) {sid : Nat} (hc : c.session = some sid) :
    (s.shared.sessions sid).alive = true :=
  (h.calls c (hs ▸ Multiset.mem_cons_self c rest)).alive sid hc

/-- A session is locked by one call only. -/
theorem Sane.lock_holder {s : State} (h : Sane s) {c : Call} {rest : Multiset Call}
    (hs : s.calls = c ::ₘ rest) {sid : Nat} (hc : c.locks sid = true) :
    (s.shared.sessions sid).locked = true ∧ rest.countP (fun d => d.locks sid = true) = 0 := by
  have hcount := h.locked sid
  rw [hs, Multiset.countP_cons, if_pos hc] at hcount
  split at hcount
  · rename_i hlocked
    exact ⟨hlocked, by omega⟩
  · omega

/-- Only the allocator and the number of messages given out change. -/
theorem sane_alloc {s : State} (h : Sane s) {c : Call} {rest : Multiset Call}
    (new : Multiset Call) (hs : s.calls = c ::ₘ rest) (a : Allocator) (serial : Nat)
    (hcount : ∀ i, new.countP (fun d => d.locks i = true) = if c.locks i then 1 else 0)
    (hnew : ∀ d ∈ new, (∀ i, d.session = some i → c.session = some i) ∧
      ∀ sid e task, d ≠ .chain sid e task) :
    Sane ⟨{ s.shared.setAlloc a with serial := serial }, new + rest⟩ := by
  refine h.keep new hs rfl (fun _ => Or.inl rfl) (fun _ => rfl) (fun _ => rfl) hcount fun d hd => ?_
  refine ⟨fun i hi => h.alive_of_call hs ((hnew d hd).1 i hi), fun sid e task he => ?_⟩
  exact absurd he ((hnew d hd).2 sid e (some task))

/-- A section of the write side that leaves locks alone. -/
theorem sane_setWrite {s : State} (h : Sane s) {c : Call} {rest : Multiset Call}
    (new : Multiset Call) (hs : s.calls = c ::ₘ rest) {sid : Nat} (halive : (s.shared.sessions sid).alive = true)
    (w : WriteSide Ref) (hc : ∀ i, c.locks i = false) (hlocks : ∀ d ∈ new, ∀ i, d.locks i = false)
    (hnew : ∀ d ∈ new, (∀ i, d.session = some i → i = sid) ∧
      ∀ i e task, d = .chain i e (some task) → task.MayWrite i) :
    Sane ⟨s.shared.setWrite sid w, new + rest⟩ := by
  have hkeep : ∀ i, ((s.shared.setWrite sid w).sessions i).alive =
      (s.shared.sessions i).alive := fun i =>
    update_rel s.shared sid (Session.withWrite w) (fun x y => y.alive = x.alive)
      (fun _ => rfl) rfl i
  refine h.keep new hs rfl (fun i => ?_) hkeep (fun i => ?_) (fun i => ?_) fun d hd => ?_
  · by_cases he : i = sid
    · exact Or.inr (he ▸ h.created sid halive)
    · exact Or.inl (congrArg Session.write (update_other s.shared sid _ he))
  · exact update_rel s.shared sid (Session.withWrite w) (fun x y => y.locked = x.locked)
      (fun _ => rfl) rfl i
  · rw [hc i]
    refine Multiset.countP_eq_zero.mpr fun d hd => ?_
    rw [hlocks d hd i]
    exact Bool.false_ne_true
  · refine ⟨fun i hi => ?_, (hnew d hd).2⟩
    rw [hkeep, (hnew d hd).1 i hi]
    exact halive

theorem sane_lock {s : State} (h : Sane s) {sid : Nat} {task : Option Task} {msg : Ref}
    {rest : Multiset Call} (hs : s.calls = .chain sid (.handler .body false) task ::ₘ rest)
    (hfree : (s.shared.sessions sid).locked = false) :
    Sane ⟨s.shared.lock sid msg, .dellocate sid msg ::ₘ rest⟩ := by
  have halive := h.alive_of_call hs rfl
  have hwrite : ∀ i, ((s.shared.lock sid msg).sessions i).write = (s.shared.sessions i).write :=
    update_rel s.shared sid (Session.withLocked true) (fun x y => y.write = x.write)
      (fun _ => rfl) rfl
  have hkeep : ∀ i, ((s.shared.lock sid msg).sessions i).alive = (s.shared.sessions i).alive :=
    update_rel s.shared sid (Session.withLocked true) (fun x y => y.alive = x.alive)
      (fun _ => rfl) rfl
  refine ⟨fun i hi => h.created i ((hkeep i).symm.trans hi),
    fun i hi => (hwrite i).trans (h.unborn i hi), fun c hc => ?_, fun i => ?_⟩
  · rcases Multiset.mem_cons.mp hc with rfl | hc
    · refine ⟨fun i hi => ?_, fun _ _ _ he => by cases he⟩
      obtain rfl := Option.some.inj hi
      exact (hkeep sid).trans halive
    · refine (h.calls c ?_).mono fun i hi => (hkeep i).trans hi
      rw [hs]
      exact Multiset.mem_cons_of_mem hc
  · have hold := h.locked i
    rw [hs, Multiset.countP_cons_of_neg _ (by rw [locks_chain]; exact Bool.false_ne_true)] at hold
    show (Call.dellocate sid msg ::ₘ rest).countP _ = _
    rw [Multiset.countP_cons, hold]
    by_cases he : i = sid
    · subst he
      simp [Call.locks, Shared.lock, update_self, hfree, Session.withLocked]
    · have hl : ((s.shared.lock sid msg).sessions i).locked = (s.shared.sessions i).locked :=
        congrArg Session.locked (update_other s.shared sid _ he)
      simp [Call.locks, hl, Ne.symm he]

theorem sane_pop {s : State} (h : Sane s) {sid : Nat} {msg : Ref} {rest : Multiset Call}
    (hs : s.calls = .dellocated sid msg ::ₘ rest) :
    Sane ⟨s.shared.pop sid, .chain sid (.doWrite .handlerWriteBody) none ::ₘ rest⟩ := by
  have halive := h.alive_of_call hs rfl
  have hother : ∀ i ≠ sid, (s.shared.pop sid).sessions i = s.shared.sessions i := by
    intro i hi
    rw [Shared.pop, update_other _ _ _ hi, Shared.setWrite, update_other _ _ _ hi]
  have hself : (s.shared.pop sid).sessions sid = ((s.shared.sessions sid).withWrite
      (s.shared.sessions sid).write.handlerWriteBody).withLocked false := by
    rw [Shared.pop, update_self, Shared.setWrite, update_self]
  have hkeep : ∀ i, ((s.shared.pop sid).sessions i).alive = (s.shared.sessions i).alive := by
    intro i
    by_cases he : i = sid
    · rw [he, hself]; rfl
    · rw [hother i he]
  refine ⟨fun i hi => h.created i ((hkeep i).symm.trans hi), fun i hi => ?_, fun c hc => ?_,
    fun i => ?_⟩
  · have hne : i ≠ sid := fun he =>
      absurd (h.created sid halive) (Nat.not_lt.mpr (he ▸ hi))
    rw [hother i hne]
    exact h.unborn i hi
  · rcases Multiset.mem_cons.mp hc with rfl | hc
    · refine ⟨fun i hi => ?_, fun _ _ _ he => by cases he⟩
      obtain rfl := Option.some.inj hi
      exact (hkeep sid).trans halive
    · refine (h.calls c ?_).mono fun i hi => (hkeep i).trans hi
      rw [hs]
      exact Multiset.mem_cons_of_mem hc
  · rw [Multiset.countP_cons_of_neg _ (by rw [locks_chain]; exact Bool.false_ne_true)]
    by_cases he : i = sid
    · subst he
      rw [hself]
      exact (h.lock_holder hs (beq_self_eq_true i)).2
    · have hnone : ¬ (Call.dellocated sid msg).locks i = true := by
        simpa [Call.locks] using Ne.symm he
      have hold := h.locked i
      rw [hs, Multiset.countP_cons, if_neg hnone] at hold
      rw [hother i he]
      exact hold

/-- The calls that a section of the write side goes on as. -/
theorem mem_chainCalls {sid : Nat} {c : WriteCall Ref} {task : Option Task}
    {calls : Multiset (WriteCall Ref)} {d : Call}
    (hd : d ∈ calls.map (Call.chain sid · (carried c task)) + resumed c task) :
    (∃ e, d = .chain sid e (carried c task)) ∨ d ∈ resumed c task := by
  rcases Multiset.mem_add.mp hd with hd | hd
  · obtain ⟨e, _, rfl⟩ := Multiset.mem_map.mp hd
    exact Or.inl ⟨e, rfl⟩
  · exact Or.inr hd

theorem sane_chain {s : State} (h : Sane s) {sid : Nat} {c : WriteCall Ref} {task : Option Task}
    {rest : Multiset Call} (hs : s.calls = .chain sid c task ::ₘ rest) (error : Bool) :
    Sane ⟨s.shared.setWrite sid (SessionWrite.next (s.shared.sessions sid).write c error).1,
      (SessionWrite.next (s.shared.sessions sid).write c error).2.map
        (Call.chain sid · (carried c task)) + resumed c task + rest⟩ := by
  have hmay : ∀ t, task = some t → t.MayWrite sid := by
    intro t ht
    refine (h.calls (.chain sid c task) ?_).task sid c t (by rw [ht])
    rw [hs]
    exact Multiset.mem_cons_self _ rest
  refine sane_setWrite h _ hs (h.alive_of_call hs rfl) _ (locks_chain sid c task) ?_ ?_
  · intro d hd i
    rcases mem_chainCalls hd with ⟨e, rfl⟩ | hd
    · rfl
    · exact locks_plain (resumed_plain hd) i
  · intro d hd
    rcases mem_chainCalls hd with ⟨e, rfl⟩ | hd
    · refine ⟨fun i hi => (Option.some.inj hi).symm, fun i e' task' he => ?_⟩
      simp only [Call.chain.injEq] at he
      obtain ⟨rfl, _, hcarried⟩ := he
      exact hmay task' (carried_task hcarried)
    · refine ⟨fun i hi => resumed_session hd hmay hi, fun i e task' he => ?_⟩
      have hplain := resumed_plain hd
      rw [he] at hplain
      cases hplain

theorem sane_leave {s : State} (h : Sane s) {sid : Nat} {c : WriteCall Ref} {task : Option Task}
    {rest : Multiset Call} (hs : s.calls = .chain sid c task ::ₘ rest) :
    Sane ⟨s.shared.leave sid, rest⟩ := by
  have hq := quiet_leave s.shared sid
  have hkeep := h.keep 0 hs hq.created (fun i => Or.inl (hq.write i)) hq.alive hq.locked
    (fun i => by simp [locks_chain]) (fun d hd => absurd hd (Multiset.notMem_zero d))
  rw [Multiset.zero_add] at hkeep
  exact hkeep

/-- A call goes on as one that holds the same locks and keeps the same session. -/
theorem sane_one {s : State} (h : Sane s) {c d : Call} {rest : Multiset Call}
    (hs : s.calls = c ::ₘ rest) (a : Allocator) (serial : Nat)
    (hlocks : ∀ i, d.locks i = c.locks i) (hsession : ∀ i, d.session = some i → c.session = some i)
    (hchain : ∀ sid e task, d ≠ .chain sid e task) :
    Sane ⟨{ s.shared.setAlloc a with serial := serial }, d ::ₘ rest⟩ := by
  rw [← Multiset.singleton_add]
  refine sane_alloc h {d} hs a serial (fun i => ?_) fun e he => ?_
  · rw [countP_locks_one, hlocks]
  · obtain rfl := Multiset.mem_singleton.mp he
    exact ⟨hsession, hchain⟩

theorem sane_given {s : State} (h : Sane s) {c : Call} {task : Task} {header : HDR}
    {rest : Multiset Call} (hs : s.calls = c ::ₘ rest) (hlocks : ∀ i, c.locks i = false)
    (hsession : ∀ i, (Call.allocate task header).session = some i → c.session = some i)
    (r : Allocator × Allocated) :
    Sane ⟨(handOut s.shared task header r).1, (handOut s.shared task header r).2 + rest⟩ := by
  obtain ⟨alloc, result⟩ := r
  cases result with
  | got p =>
    exact sane_one h (d := .inHand task ⟨p, s.shared.serial⟩) hs alloc (s.shared.serial + 1)
      (fun i => (hlocks i).symm) (fun i hi => hsession i (by cases task <;> exact hi))
      fun _ _ _ he => by cases he
  | retry =>
    exact sane_one h (d := .allocateRetry task header) hs alloc s.shared.serial
      (fun i => (hlocks i).symm) (fun i hi => hsession i (by cases task <;> exact hi))
      fun _ _ _ he => by cases he
  | badAlloc =>
    refine sane_alloc h 0 hs alloc s.shared.serial (fun i => ?_) fun d hd => ?_
    · simp [hlocks]
    · exact absurd hd (Multiset.notMem_zero d)

theorem sane_step {s t : State} {a : Action} (h : Sane s) (he : Effect s a t) : Sane t := by
  cases he with
  | quiet hq hs hp => exact sane_quiet h hq hs hp
  | create => exact sane_create h
  | clear => exact ⟨h.created, h.unborn, fun c hc => (h.calls c hc).mono fun _ hi => hi, h.locked⟩
  | destroy _ hfree => exact sane_destroy h hfree
  | chain hs => exact sane_chain h hs _
  | chainLeave hs => exact sane_leave h hs
  | lock hs hfree _ => exact sane_lock h hs hfree
  | @taken sid msg o alloc rest hs _ | @retry sid msg o alloc rest hs _ =>
    exact sane_one h hs alloc s.shared.serial (fun _ => rfl) (fun _ hi => hi)
      fun _ _ _ he => by cases he
  | stored hs =>
    exact sane_one h hs _ s.shared.serial (fun _ => rfl) (fun _ hi => hi)
      fun _ _ _ he => by cases he
  | popped hs => exact sane_pop h hs
  | @given c task header mem r rest hs hr =>
    rcases hr with ⟨rfl, _⟩ | ⟨rfl, _⟩
    · exact sane_given h hs (fun _ => rfl) (fun _ hi => hi) r
    · exact sane_given h hs (fun _ => rfl) (fun i hi => by cases task <;> exact hi) r
  | @setBody task msg mem data n rest hs =>
    refine sane_alloc h _ hs _ s.shared.serial (fun i => ?_) fun d hd => ?_
    · split
      · rfl
      · exact countP_locks_one _ i
    · split at hd
      · exact absurd hd (Multiset.notMem_zero d)
      · obtain rfl := Multiset.mem_singleton.mp hd
        exact ⟨fun i hi => hi, fun _ _ _ he => by cases he⟩
  | @pushed task msg sid rest hs hmay halive _ =>
    refine sane_setWrite h {_} hs halive _ (fun _ => rfl) ?_ ?_
    · intro d hd i
      obtain rfl := Multiset.mem_singleton.mp hd
      rfl
    · intro d hd
      obtain rfl := Multiset.mem_singleton.mp hd
      refine ⟨fun i hi => (Option.some.inj hi).symm, fun i e task' he => ?_⟩
      simp only [Call.chain.injEq, Option.some.injEq] at he
      obtain ⟨rfl, _, rfl⟩ := he
      exact hmay

theorem sane_of_reach {ok : State → Action → Prop} {s : State} (h : Reach step ok start s) :
    Sane s :=
  h.invariant sane_start fun _ _ _ _ hs _ hstep => sane_step hs (effect_of_step hstep)

end AsioTcp.Manager
