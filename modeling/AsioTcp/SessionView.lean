import AsioTcp.ManagerSane
import AsioTcp.WriteChain

/-!
# One session of the manager

`session s sid` is what the write side of session `sid` sees of a state of the
whole `connection_mgr`: its queue and its calls, a `handler_write_body` that
is giving back its message being still at its locked section. Every run of the
manager is for each session a run of `SessionWrite.program`, so that what
`WriteChain` proves of one session holds of all of them at once.
-/

namespace AsioTcp.Manager

open Transition WriteChain

/-- The call as the write side of session `sid` sees it. -/
def Call.onSession (sid : Nat) : Call → Option (WriteCall Ref)
  | .chain i c _ => if i = sid then some c else none
  | .dellocate i _ | .dellocateRetry i _ | .dellocated i _ =>
    if i = sid then some (.handler .body false) else none
  | _ => none

def session (s : State) (sid : Nat) : SessionWrite.Config Ref :=
  ⟨(s.shared.sessions sid).write, s.calls.filterMap (Call.onSession sid)⟩

/-- The call is a `handler_write_body` of the session between its pop and its
`do_write`. -/
def Call.afterPop (sid : Nat) : Call → Bool
  | .chain i (.doWrite .handlerWriteBody) _ => i == sid
  | _ => false

/-- A `write` finds the queue empty while a `handler_write_body` is between its
pop and its `do_write`. -/
def pushesAfterPop (s : State) : Action → Bool
  | .run (.inHand _ _) (.write sid) => (s.shared.sessions sid).write.msgQueue.isEmpty &&
      !decide (∀ c ∈ s.calls, c.afterPop sid = false)
  | _ => false

def NoPushInGap (s : State) (a : Action) : Prop := pushesAfterPop s a = false

theorem onSession_chain_self (i : Nat) (c : WriteCall Ref) (task : Option Task) :
    (Call.chain i c task).onSession i = some c := if_pos rfl

theorem onSession_chain_other {i sid : Nat} (h : i ≠ sid) (c : WriteCall Ref)
    (task : Option Task) : (Call.chain i c task).onSession sid = none := if_neg h

theorem onSession_plain {c : Call} (hc : c.plain = true) (sid : Nat) : c.onSession sid = none := by
  cases c <;> first | rfl | cases hc

theorem filterMap_plain {calls : Multiset Call} (h : ∀ c ∈ calls, c.plain = true) (sid : Nat) :
    calls.filterMap (Call.onSession sid) = 0 := by
  refine Multiset.eq_zero_of_forall_notMem fun e he => ?_
  obtain ⟨c, hc, hce⟩ := (Multiset.mem_filterMap _ _).mp he
  rw [onSession_plain (h c hc) sid] at hce
  cases hce

theorem filterMap_chain_self (sid : Nat) (calls : Multiset (WriteCall Ref)) (task : Option Task) :
    (calls.map (Call.chain sid · task)).filterMap (Call.onSession sid) = calls := by
  have hself : Call.onSession sid ∘ (Call.chain sid · task) = some :=
    funext fun c => onSession_chain_self sid c task
  rw [Multiset.filterMap_map, hself, Multiset.filterMap_some]

theorem filterMap_chain_other {i sid : Nat} (h : i ≠ sid) (calls : Multiset (WriteCall Ref))
    (task : Option Task) : (calls.map (Call.chain i · task)).filterMap (Call.onSession sid) = 0 := by
  refine Multiset.eq_zero_of_forall_notMem fun e he => ?_
  obtain ⟨c, hc, hce⟩ := (Multiset.mem_filterMap _ _).mp he
  obtain ⟨d, _, rfl⟩ := Multiset.mem_map.mp hc
  rw [onSession_chain_other h] at hce
  cases hce

/-- The call that runs is replaced by one that the session sees alike. -/
theorem session_one {s : State} {s' : Shared} {c d : Call} {rest : Multiset Call} {sid : Nat}
    (hs : s.calls = c ::ₘ rest) (hd : d.onSession sid = c.onSession sid)
    (hw : (s'.sessions sid).write = (s.shared.sessions sid).write) :
    session ⟨s', d ::ₘ rest⟩ sid = session s sid := by
  simp only [session, hs, hw, Multiset.filterMap_cons, hd]

/-- The call that runs is not one of the session, and neither are the new ones. -/
theorem session_unseen {s : State} {s' : Shared} {c : Call} {new rest : Multiset Call} {sid : Nat}
    (hs : s.calls = c ::ₘ rest) (hc : c.onSession sid = none)
    (hnew : new.filterMap (Call.onSession sid) = 0)
    (hw : (s'.sessions sid).write = (s.shared.sessions sid).write) :
    session ⟨s', new + rest⟩ sid = session s sid := by
  rw [session, session, hs, hw, Multiset.filterMap_add, hnew, Multiset.zero_add,
    Multiset.filterMap_cons_none _ _ hc]

/-- A section of the session runs. -/
theorem session_run {s t : State} {sid : Nat} {c : WriteCall Ref}
    {rest : Multiset (WriteCall Ref)} (error : Bool)
    (hs : (session s sid).calls = c ::ₘ rest)
    (ht : session t sid = ⟨(SessionWrite.next (s.shared.sessions sid).write c error).1,
      (SessionWrite.next (s.shared.sessions sid).write c error).2 + rest⟩) :
    Reach (SessionWrite.program Ref).step NoPushAfterPop (session s sid) (session t sid) := by
  have hsplit : session s sid = ⟨(s.shared.sessions sid).write, c ::ₘ rest⟩ := by
    rw [← hs]
    rfl
  apply Reach.single (a := .run c error) trivial
  rw [hsplit, SessionWrite.step_run, ht]

theorem session_chain {s : State} {i : Nat} {c : WriteCall Ref} {task : Option Task}
    {rest : Multiset Call} (hs : s.calls = .chain i c task ::ₘ rest) (error : Bool) (sid : Nat) :
    Reach (SessionWrite.program Ref).step NoPushAfterPop (session s sid)
      (session ⟨s.shared.setWrite i (SessionWrite.next (s.shared.sessions i).write c error).1,
        (SessionWrite.next (s.shared.sessions i).write c error).2.map (Call.chain i · (carried c task)) +
          resumed c task + rest⟩ sid) := by
  have hresumed : (resumed c task).filterMap (Call.onSession sid) = 0 :=
    filterMap_plain (fun _ hd => resumed_plain hd) sid
  by_cases he : i = sid
  · subst he
    have hcall : (session s i).calls = c ::ₘ rest.filterMap (Call.onSession i) := by
      rw [session, hs]
      exact Multiset.filterMap_cons_some _ _ _ (onSession_chain_self i c task)
    apply session_run error hcall
    rw [session, Shared.setWrite, update_self, Multiset.filterMap_add, Multiset.filterMap_add,
      filterMap_chain_self, hresumed, Multiset.add_zero]
    rfl
  · rw [session_unseen hs (onSession_chain_other he c task)]
    · exact .refl
    · rw [Multiset.filterMap_add, filterMap_chain_other he, hresumed]
      rfl
    · exact congrArg Session.write (update_other s.shared i _ (Ne.symm he))

theorem session_pop {s : State} {i : Nat} {msg : Ref} {rest : Multiset Call}
    (hs : s.calls = .dellocated i msg ::ₘ rest) (sid : Nat) :
    Reach (SessionWrite.program Ref).step NoPushAfterPop (session s sid)
      (session ⟨s.shared.pop i, .chain i (.doWrite .handlerWriteBody) none ::ₘ rest⟩ sid) := by
  by_cases he : i = sid
  · subst he
    have hcall : (session s i).calls =
        .handler .body false ::ₘ rest.filterMap (Call.onSession i) := by
      rw [session, hs]
      exact Multiset.filterMap_cons_some _ _ _ (if_pos rfl)
    apply session_run false hcall
    rw [session, Shared.pop, update_self, Shared.setWrite, update_self,
      Multiset.filterMap_cons_some _ _ _ (onSession_chain_self i _ none),
      ← Multiset.singleton_add]
    rfl
  · have hc : (Call.dellocated i msg).onSession sid = none := if_neg he
    rw [session_one hs ((onSession_chain_other he _ none).trans hc.symm)]
    · exact .refl
    · rw [Shared.pop, update_other _ _ _ (Ne.symm he), Shared.setWrite,
        update_other _ _ _ (Ne.symm he)]

theorem session_push {s : State} {task : Task} {msg : Ref} {i : Nat} {rest : Multiset Call}
    (hs : s.calls = .inHand task msg ::ₘ rest)
    (hok : NoPushInGap s (.run (.inHand task msg) (.write i))) (sid : Nat) :
    Reach (SessionWrite.program Ref).step NoPushAfterPop (session s sid)
      (session ⟨s.shared.setWrite i ((s.shared.sessions i).write.write msg).1,
        .chain i ((s.shared.sessions i).write.write msg).2 (some task) ::ₘ rest⟩ sid) := by
  have hcalls : s.calls.filterMap (Call.onSession sid) =
      rest.filterMap (Call.onSession sid) := by
    rw [hs, Multiset.filterMap_cons_none _ _ rfl]
  by_cases he : i = sid
  · subst he
    refine Reach.single (a := .enter msg) ?_ ?_
    · intro hq hmem
      obtain ⟨c, hc, hci⟩ := (Multiset.mem_filterMap _ _).mp hmem
      have hafter : c.afterPop i = true := by
        cases c with
        | chain j d task' =>
          simp only [Call.onSession] at hci
          split at hci <;> cases hci
          rename_i hj
          exact beq_iff_eq.mpr hj
        | dellocate j m | dellocateRetry j m | dellocated j m =>
          simp only [Call.onSession] at hci
          split at hci <;> cases hci
        | _ => cases hci
      have hempty : (s.shared.sessions i).write.msgQueue.isEmpty = true :=
        List.isEmpty_iff.mpr hq
      simp only [NoPushInGap, pushesAfterPop, hempty, Bool.true_and, Bool.not_eq_false',
        decide_eq_true_eq] at hok
      exact Bool.false_ne_true ((hok c hc).symm.trans hafter)
    · rw [SessionWrite.step_enter, session, session, Shared.setWrite, update_self, hcalls,
        Multiset.filterMap_cons_some _ _ _ (onSession_chain_self i _ (some task))]
      rfl
  · have hunseen : session ⟨s.shared.setWrite i ((s.shared.sessions i).write.write msg).1,
        .chain i ((s.shared.sessions i).write.write msg).2 (some task) ::ₘ rest⟩ sid =
        session s sid :=
      session_one hs (onSession_chain_other he _ (some task))
        (congrArg Session.write (update_other s.shared i _ (Ne.symm he)))
    rw [hunseen]
    exact .refl

/-- **Refinement.** A step of the manager is at most one step of each session. -/
theorem session_step {s t : State} {a : Action} (he : Effect s a t) (hok : NoPushInGap s a)
    (sid : Nat) : Reach (SessionWrite.program Ref).step NoPushAfterPop (session s sid) (session t sid) := by
  have hsame : session t sid = session s sid →
      Reach (SessionWrite.program Ref).step NoPushAfterPop (session s sid) (session t sid) :=
    fun h => h ▸ .refl
  cases he with
  | quiet hq hcalls hp =>
    apply hsame
    rw [session, session, hcalls, hq.write, Multiset.filterMap_add, Multiset.filterMap_add,
      filterMap_plain (fun c hc => (hp.after c hc).1), filterMap_plain hp.before]
  | create =>
    apply hsame
    have hw := update_rel s.shared s.shared.created (Session.withAlive true)
      (fun x y => y.write = x.write) (fun _ => rfl) rfl sid
    rw [session, session, Multiset.filterMap_cons_none _ _ rfl]
    exact congrArg (Interleaving.Config.mk · _) hw
  | clear => exact .refl
  | @destroy i =>
    apply hsame
    have hw := update_rel s.shared i (Session.withAlive false)
      (fun x y => y.write = x.write) (fun _ => rfl) rfl sid
    exact congrArg (Interleaving.Config.mk · _) hw
  | chain hcalls => exact session_chain hcalls _ sid
  | @chainLeave i part task o rest hcalls =>
    by_cases he : i = sid
    · subst he
      have hcall : (session s i).calls =
          .handler part true ::ₘ rest.filterMap (Call.onSession i) := by
        rw [session, hcalls]
        exact Multiset.filterMap_cons_some _ _ _ (onSession_chain_self i _ task)
      apply session_run false hcall
      rw [session, (quiet_leave s.shared i).write]
      exact congrArg (Interleaving.Config.mk _) (Multiset.zero_add _).symm
    · apply hsame
      rw [session, session, hcalls, Multiset.filterMap_cons_none _ _ (onSession_chain_other he _ task),
        (quiet_leave s.shared i).write]
  | @lock i task o msg q rest hcalls =>
    exact hsame (session_one hcalls rfl (update_rel s.shared i (Session.withLocked true)
      (fun x y => y.write = x.write) (fun _ => rfl) rfl sid))
  | taken hcalls | retry hcalls | stored hcalls => exact hsame (session_one hcalls rfl rfl)
  | popped hcalls => exact session_pop hcalls sid
  | @given c task header mem r rest hcalls hr =>
    have hc : c.onSession sid = none := by
      rcases hr with ⟨rfl, _⟩ | ⟨rfl, _⟩ <;> rfl
    obtain ⟨alloc, result⟩ := r
    cases result with
    | got p => exact hsame (session_unseen hcalls hc (Multiset.filterMap_cons_none _ 0 rfl) rfl)
    | retry => exact hsame (session_unseen hcalls hc (Multiset.filterMap_cons_none _ 0 rfl) rfl)
    | badAlloc => exact hsame (session_unseen hcalls hc rfl rfl)
  | setBody hcalls =>
    refine hsame (session_unseen hcalls rfl ?_ rfl)
    split
    · rfl
    · exact Multiset.filterMap_cons_none _ 0 rfl
  | pushed hcalls => exact session_push hcalls hok sid

/-- Each session of a run in which no `write` falls into the gap has one chain. -/
theorem oneChain_session {ok : State → Action → Prop} (hsub : ∀ s a, ok s a → NoPushInGap s a)
    {s : State} (h : Reach step ok start s) (sid : Nat) : OneChain (session s sid) :=
  oneChain_of_reach (h.simulate (session · sid) rfl fun _ _ _ _ hok hstep =>
    session_step (effect_of_step hstep) (hsub _ _ hok) sid)

end AsioTcp.Manager
