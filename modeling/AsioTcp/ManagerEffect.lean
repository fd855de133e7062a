import AsioTcp.Manager

/-!
# What one step of a `connection_mgr` can do

`Effect` lists the effects of a step on messages, queues and locks, and
`effect_of_step` is the inversion lemma: the invariants of the following
modules are kept because each effect keeps them. Steps that concern no message
are all one effect, `quiet`.
-/

namespace AsioTcp.Manager

open Interleaving

/-- Nothing changes that messages or the locks of sessions depend on. -/
structure Quiet (s s' : Shared) : Prop where
  alloc : s'.alloc = s.alloc
  created : s'.created = s.created
  serial : s'.serial = s.serial
  dead : s'.dead = s.dead
  write : ∀ i, (s'.sessions i).write = (s.sessions i).write
  locked : ∀ i, (s'.sessions i).locked = (s.sessions i).locked
  alive : ∀ i, (s'.sessions i).alive = (s.sessions i).alive

theorem Quiet.refl (s : Shared) : Quiet s s :=
  ⟨rfl, rfl, rfl, rfl, fun _ => rfl, fun _ => rfl, fun _ => rfl⟩

theorem quiet_update (s : Shared) (sid : Nat) {f : Session → Session}
    (hw : ∀ x, (f x).write = x.write) (hl : ∀ x, (f x).locked = x.locked)
    (ha : ∀ x, (f x).alive = x.alive) : Quiet s (s.update sid f) := by
  refine ⟨rfl, rfl, rfl, rfl, fun i => ?_, fun i => ?_, fun i => ?_⟩ <;>
    simp only [Shared.update] <;> split
  · exact hw _
  · rfl
  · exact hl _
  · rfl
  · exact ha _
  · rfl

theorem quiet_leave (s : Shared) (sid : Nat) : Quiet s (s.leave sid) :=
  quiet_update s sid (fun _ => rfl) (fun _ => rfl) (fun _ => rfl)

/-- The call has no message and no part in the writing of a session. -/
def Call.plain : Call → Bool
  | .chain _ _ _ | .dellocate _ _ | .dellocateRetry _ _ | .dellocated _ _ | .inHand _ _ => false
  | _ => true

/-- The plain calls `old` become the plain calls `new`, of the same sessions. -/
structure PlainStep (old new : Multiset Call) : Prop where
  before : ∀ c ∈ old, c.plain = true
  after : ∀ c ∈ new, c.plain = true ∧ (c.session = none ∨ ∃ d ∈ old, d.session = c.session)

theorem plainStep_one {c d : Call} (hc : c.plain = true) (hd : d.plain = true)
    (hs : d.session = none ∨ c.session = d.session) : PlainStep {c} {d} := by
  refine ⟨fun e he => ?_, fun e he => ?_⟩ <;> obtain rfl := Multiset.mem_singleton.mp he
  · exact hc
  · exact ⟨hd, hs.imp id fun h => ⟨c, Multiset.mem_singleton_self c, h⟩⟩

theorem plainStep_end {c : Call} (hc : c.plain = true) : PlainStep {c} 0 :=
  ⟨fun _ he => Multiset.mem_singleton.mp he ▸ hc, fun e he => absurd he (Multiset.notMem_zero e)⟩

theorem plainStep_enter {c : Call} (hc : c.plain = true) (hs : c.session = none) :
    PlainStep 0 {c} := by
  refine ⟨fun e he => absurd he (Multiset.notMem_zero e), fun e he => ?_⟩
  obtain rfl := Multiset.mem_singleton.mp he
  exact ⟨hc, Or.inl hs⟩

/-- What a step can do, with the action that does it. -/
inductive Effect (s : State) : Action → State → Prop
  | quiet {a : Action} {s' : Shared} {old new rest : Multiset Call} :
      Quiet s.shared s' → s.calls = old + rest → PlainStep old new → Effect s a ⟨s', new + rest⟩
  | create : Effect s (.enter .create)
      ⟨s.shared.create, .accepting s.shared.created ::ₘ s.calls⟩
  | clear : Effect s (.enter .clearBuffer)
      ⟨s.shared.setAlloc s.shared.alloc.clearBuffer, s.calls⟩
  | destroy {sid : Nat} : (s.shared.sessions sid).alive = true →
      (∀ c ∈ s.calls, c.session ≠ some sid) →
      Effect s (.enter (.destroy sid))
        ⟨s.shared.update sid (Session.withAlive false), s.calls⟩
  | chain {sid : Nat} {c : WriteCall Ref} {task : Option Task} {o : Outcome}
      {rest : Multiset Call} : s.calls = .chain sid c task ::ₘ rest →
      (waits c = true → (s.shared.sessions sid).locked = false) →
      (∀ part, c ≠ .handler part true) →
      (c = .handler .body false → (s.shared.sessions sid).write.msgQueue = []) →
      Effect s (.run (.chain sid c task) o)
        ⟨s.shared.setWrite sid (SessionWrite.next (s.shared.sessions sid).write c o.failed).1,
          (SessionWrite.next (s.shared.sessions sid).write c o.failed).2.map
            (Call.chain sid · (carried c task)) + resumed c task + rest⟩
  | chainLeave {sid : Nat} {part : Part} {task : Option Task} {o : Outcome}
      {rest : Multiset Call} : s.calls = .chain sid (.handler part true) task ::ₘ rest →
      Effect s (.run (.chain sid (.handler part true) task) o) ⟨s.shared.leave sid, rest⟩
  | lock {sid : Nat} {task : Option Task} {o : Outcome} {msg : Ref} {q : List Ref}
      {rest : Multiset Call} : s.calls = .chain sid (.handler .body false) task ::ₘ rest →
      (s.shared.sessions sid).locked = false → (s.shared.sessions sid).write.msgQueue = msg :: q →
      Effect s (.run (.chain sid (.handler .body false) task) o)
        ⟨s.shared.lock sid msg, .dellocate sid msg ::ₘ rest⟩
  | taken {sid : Nat} {msg : Ref} {o : Outcome} {alloc : Allocator} {rest : Multiset Call} :
      s.calls = .dellocate sid msg ::ₘ rest →
      s.shared.alloc.dellocateRead msg.ptr = (alloc, false) →
      Effect s (.run (.dellocate sid msg) o)
        ⟨s.shared.setAlloc alloc, .dellocated sid msg ::ₘ rest⟩
  | retry {sid : Nat} {msg : Ref} {o : Outcome} {alloc : Allocator} {rest : Multiset Call} :
      s.calls = .dellocate sid msg ::ₘ rest →
      s.shared.alloc.dellocateRead msg.ptr = (alloc, true) →
      Effect s (.run (.dellocate sid msg) o)
        ⟨s.shared.setAlloc alloc, .dellocateRetry sid msg ::ₘ rest⟩
  | stored {sid : Nat} {msg : Ref} {o : Outcome} {rest : Multiset Call} :
      s.calls = .dellocateRetry sid msg ::ₘ rest →
      Effect s (.run (.dellocateRetry sid msg) o)
        ⟨s.shared.setAlloc (s.shared.alloc.dellocateWrite msg.ptr), .dellocated sid msg ::ₘ rest⟩
  | popped {sid : Nat} {msg : Ref} {o : Outcome} {rest : Multiset Call} :
      s.calls = .dellocated sid msg ::ₘ rest →
      Effect s (.run (.dellocated sid msg) o)
        ⟨s.shared.pop sid, .chain sid (.doWrite .handlerWriteBody) none ::ₘ rest⟩
  | given {c : Call} {task : Task} {header : HDR} {mem : Memory} {r : Allocator × Allocated}
      {rest : Multiset Call} : s.calls = c ::ₘ rest →
      (c = .allocate task header ∧ r = s.shared.alloc.allocateRead mem header ∨
        c = .allocateRetry task header ∧ r = s.shared.alloc.allocateWrite mem header) →
      Effect s (.run c (.memory mem))
        ⟨(handOut s.shared task header r).1, (handOut s.shared task header r).2 + rest⟩
  | setBody {task : Task} {msg : Ref} {mem : Memory} {data : List BYTE} {n : SizeT}
      {rest : Multiset Call} : s.calls = .inHand task msg ::ₘ rest →
      Effect s (.run (.inHand task msg) (.setBody mem data n))
        ⟨s.shared.setAlloc (s.shared.alloc.setBody mem msg.ptr data n).1,
          (if (s.shared.alloc.setBody mem msg.ptr data n).2 then 0 else {.inHand task msg}) + rest⟩
  | pushed {task : Task} {msg : Ref} {sid : Nat} {rest : Multiset Call} :
      s.calls = .inHand task msg ::ₘ rest → task.MayWrite sid →
      (s.shared.sessions sid).alive = true → (s.shared.sessions sid).locked = false →
      Effect s (.run (.inHand task msg) (.write sid))
        ⟨s.shared.setWrite sid ((s.shared.sessions sid).write.write msg).1,
          .chain sid ((s.shared.sessions sid).write.write msg).2 (some task) ::ₘ rest⟩

/-- A plain call runs. -/
theorem Effect.plain {s : State} {a : Action} {s' : Shared} {c : Call} {new rest : Multiset Call}
    (hs : s.calls = c ::ₘ rest) (hq : Quiet s.shared s') (hp : PlainStep {c} new) :
    Effect s a ⟨s', new + rest⟩ :=
  .quiet hq (hs.trans (Multiset.singleton_add c rest).symm) hp

theorem effect_enter {s t : State} {e : Event} (h : step s (.enter e) = some t) :
    Effect s (.enter e) t := by
  obtain ⟨cs, hcs, ht⟩ := Program.step_enter h
  obtain ⟨s', calls⟩ := t
  simp only at hcs ht
  subst ht
  cases e with
  | create => cases hcs; exact .create
  | application header =>
    cases hcs
    exact .quiet (.refl _) (Multiset.zero_add _).symm (plainStep_enter rfl rfl)
  | writeToAll header =>
    cases hcs
    exact .quiet (.refl _) (Multiset.zero_add _).symm (plainStep_enter rfl rfl)
  | stop =>
    simp only [program, enter] at hcs
    split at hcs <;> cases hcs
    refine .quiet ?_ (Multiset.zero_add _).symm
      ⟨fun c hc => absurd hc (Multiset.notMem_zero c), fun c hc => absurd hc (Multiset.notMem_zero c)⟩
    exact ⟨rfl, rfl, rfl, rfl, fun _ => rfl, fun _ => rfl, fun _ => rfl⟩
  | clearBuffer =>
    simp only [program, enter] at hcs
    split at hcs <;> cases hcs
    rw [Multiset.zero_add]
    exact .clear
  | destroy sid =>
    simp only [program, enter] at hcs
    split at hcs <;> cases hcs
    rename_i hfree
    rw [Multiset.zero_add]
    exact .destroy hfree.1 hfree.2.2

theorem effect_chain {s t : State} {sid : Nat} {c : WriteCall Ref} {task : Option Task}
    {o : Outcome} {rest cs : Multiset Call} (hs : s.calls = .chain sid c task ::ₘ rest)
    (hcs : chainNext s.shared rest sid c task o = some (t.shared, cs))
    (ht : t.calls = cs + rest) : Effect s (.run (.chain sid c task) o) t := by
  obtain ⟨s', calls⟩ := t
  simp only at hcs ht
  subst ht
  simp only [chainNext] at hcs
  split at hcs
  · cases hcs
  rename_i hfree
  have hlock : waits c = true → (s.shared.sessions sid).locked = false := by
    intro hw
    rw [hw, Bool.true_and] at hfree
    exact Bool.eq_false_of_not_eq_true hfree
  split at hcs
  · split at hcs <;> cases hcs
    rw [Multiset.zero_add]
    exact .chainLeave hs
  · rename_i msg q hq
    cases hcs
    exact .lock hs (hlock rfl) hq
  · rename_i hnoerror hnobody
    cases hcs
    refine .chain hs hlock (fun part hc => hnoerror part hc) fun hc => ?_
    cases hq : (s.shared.sessions sid).write.msgQueue with
    | nil => rfl
    | cons msg q => exact absurd hq (hnobody msg q hc)

theorem effect_reading {s t : State} {sid : Nat} {c : ReadCall} {o : Outcome}
    {rest cs : Multiset Call} (hs : s.calls = .reading sid c ::ₘ rest)
    (hcs : readNext s.shared rest sid c o = some (t.shared, cs))
    (ht : t.calls = cs + rest) : Effect s (.run (.reading sid c) o) t := by
  obtain ⟨s', calls⟩ := t
  simp only at hcs ht
  subst ht
  simp only [readNext] at hcs
  split at hcs
  · cases hcs
    exact .plain hs (.refl _) (plainStep_one rfl rfl (Or.inr rfl))
  · cases hcs
    exact .plain hs (quiet_update _ _ (fun _ => rfl) (fun _ => rfl) (fun _ => rfl))
      (plainStep_one rfl rfl (Or.inr rfl))
  · cases hcs
    exact .plain hs (.refl _) (plainStep_one rfl rfl (Or.inr rfl))
  · split at hcs <;> cases hcs
    exact .plain hs (quiet_leave _ _) (plainStep_end rfl)
  · cases hcs
    refine .plain hs (.refl _) ?_
    split
    · exact plainStep_one rfl rfl (Or.inr rfl)
    · exact plainStep_end rfl
  · cases hcs
    exact .plain hs (.refl _) (plainStep_one rfl rfl (Or.inr rfl))
  · cases hcs

theorem effect_inHand {s t : State} {task : Task} {msg : Ref} {o : Outcome}
    {rest cs : Multiset Call} (hs : s.calls = .inHand task msg ::ₘ rest)
    (hcs : inHandNext s.shared task msg o = some (t.shared, cs))
    (ht : t.calls = cs + rest) : Effect s (.run (.inHand task msg) o) t := by
  obtain ⟨s', calls⟩ := t
  simp only at hcs ht
  subst ht
  cases o with
  | setBody mem data n => cases hcs; exact .setBody hs
  | write sid =>
    simp only [inHandNext] at hcs
    split at hcs <;> cases hcs
    rename_i hok
    rw [Multiset.singleton_add]
    exact .pushed hs hok.1 hok.2.1 hok.2.2
  | _ => cases hcs

theorem effect_run {s t : State} {c : Call} {o : Outcome} (h : step s (.run c o) = some t) :
    Effect s (.run c o) t := by
  obtain ⟨rest, cs, hs, hcs, ht⟩ := Program.step_run h
  obtain ⟨s', calls⟩ := t
  simp only at hcs ht
  subst ht
  cases c with
  | chain sid c task => exact effect_chain hs hcs rfl
  | reading sid c => exact effect_reading hs hcs rfl
  | inHand task msg => exact effect_inHand hs hcs rfl
  | dellocate sid msg =>
    simp only [program, next] at hcs
    split at hcs <;> rename_i hr <;> cases hcs <;> rw [Multiset.singleton_add]
    · exact .retry hs hr
    · exact .taken hs hr
  | dellocateRetry sid msg =>
    cases hcs
    rw [Multiset.singleton_add]
    exact .stored hs
  | dellocated sid msg =>
    cases hcs
    rw [Multiset.singleton_add]
    exact .popped hs
  | accepting sid =>
    cases o with
    | go =>
      simp only [program, next] at hcs
      split at hcs <;> cases hcs
      exact .plain hs (quiet_update _ _ (fun _ => rfl) (fun _ => rfl) (fun _ => rfl))
        (plainStep_one rfl rfl (Or.inr rfl))
    | error =>
      simp only [program, next] at hcs
      split at hcs <;> cases hcs
      exact .plain hs (quiet_leave _ _) (plainStep_end rfl)
    | refused => cases hcs; exact .plain hs (.refl _) (plainStep_end rfl)
    | _ => cases hcs
  | starting sid =>
    cases hcs
    exact .plain hs (.refl _) (plainStep_one rfl rfl (Or.inr rfl))
  | allocate task header =>
    cases o with
    | memory mem =>
      have hr := Option.some.inj hcs
      obtain rfl : (handOut s.shared task header _).1 = s' := congrArg Prod.fst hr
      obtain rfl : (handOut s.shared task header _).2 = cs := congrArg Prod.snd hr
      exact .given hs (Or.inl ⟨rfl, rfl⟩)
    | _ => cases hcs
  | allocateRetry task header =>
    cases o with
    | memory mem =>
      have hr := Option.some.inj hcs
      obtain rfl : (handOut s.shared task header _).1 = s' := congrArg Prod.fst hr
      obtain rfl : (handOut s.shared task header _).2 = cs := congrArg Prod.snd hr
      exact .given hs (Or.inr ⟨rfl, rfl⟩)
    | _ => cases hcs
  | broadcast header todo =>
    cases todo with
    | nil => cases hcs; exact .plain hs (.refl _) (plainStep_end rfl)
    | cons sid todo => cases hcs; exact .plain hs (.refl _) (plainStep_one rfl rfl (Or.inl rfl))

/-- **Inversion.** Every step has one of the effects above. -/
theorem effect_of_step {s t : State} {a : Action} (h : step s a = some t) : Effect s a t := by
  cases a with
  | enter e => exact effect_enter h
  | run c o => exact effect_run h

end AsioTcp.Manager
