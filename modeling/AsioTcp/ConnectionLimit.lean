import AsioTcp.ReadActivity

/-!
# The maximum number of connections

`can_join` and `join` both compare the size of the registry with `max_conn_` by
`>`, so a session that comes to a registry of exactly `max_conn_` sessions is
let in.

* `size_le_succ`: there is never more than one session too many;
* `limit_kept_iff`: the limit holds as long as no session comes to `join` at a
  registry of `max_conn_` sessions, and is broken as soon as one does.
-/

namespace AsioTcp.Server

open Transition Interleaving

theorem maxConn_of_effect {s s' : ServerTcp} {a : Action} {new rest : Multiset Call}
    (h : Effect s rest a s' new) : s'.maxConn = s.maxConn := by
  cases h with
  | quiet hsame | move hsame | cancel hsame => exact hsame.maxConn
  | @disconnect f s' new hsame =>
    rw [hsame.maxConn, (disconnect_spec f s.connectionList s).same]
  | _ => rfl

/-- Only `join` makes the registry larger. -/
theorem size_of_effect {s s' : ServerTcp} {a : Action} {new rest : Multiset Call}
    (h : Effect s rest a s' new) : s'.size ≤ s.size ∨
      ∃ sid o, a = .run (.joining sid) o ∧ o ≠ .throws ∧ new = {.joined sid} ∧
        s.size ≤ s.maxConn.toNat ∧ s'.size ≤ s.size + 1 := by
  cases h with
  | quiet hsame | move hsame | cancel hsame =>
    left
    rw [ServerTcp.size, hsame.connectionList]
    exact Nat.le_refl _
  | @join sid o ho hsize =>
    refine Or.inr ⟨sid, o, rfl, ho, rfl, hsize, ?_⟩
    show (s.connectionList.insert sid).length ≤ s.connectionList.length + 1
    rw [List.length_insert]
    split <;> omega
  | leave =>
    left
    exact List.length_erase_le
  | @disconnect f s' new hsame =>
    left
    rw [ServerTcp.size, hsame.connectionList, (disconnect_spec f s.connectionList s).list]
    split
    · exact Nat.le_refl _
    · exact Nat.zero_le _
  | _ => exact Or.inl (Nat.le_refl _)

/-- A session comes to `join` and there is room for it. -/
theorem step_joining {s t : State} {sid : Nat} {o : Outcome} (ho : o ≠ .throws)
    (h : step s (.run (.joining sid) o) = some t) : ∃ rest, s.calls = .joining sid ::ₘ rest ∧
      (s.shared.size ≤ s.shared.maxConn.toNat → t.shared = s.shared.insert sid) := by
  obtain ⟨rest, cs, hcalls, hcs, -⟩ := Program.step_run h
  refine ⟨rest, hcalls, fun hroom => ?_⟩
  simp only [program] at hcs
  split at hcs
  · cases hcs
  · have hnext : next s.shared rest (.joining sid) o = some (s.shared.insert sid, {.joined sid}) := by
      cases o with
      | throws => exact absurd rfl ho
      | _ => simp only [next, acceptNext, ServerTcp.join, if_neg (Nat.not_lt.mpr hroom)]
    exact (congrArg Prod.fst (Option.some.inj (hnext.symm.trans hcs))).symm

section Runs

variable {maxConn ioThreadNum : UInt32} {ok : State → Action → Prop} {s : State}

theorem maxConn_of_reach (h : Reach step ok (start maxConn ioThreadNum) s) :
    s.shared.maxConn = maxConn := by
  refine h.invariant (P := fun t => t.shared.maxConn = maxConn) rfl fun _ _ _ _ hs _ hstep => ?_
  obtain ⟨-, _, _, -, -, heffect⟩ := effect_of_step hstep
  exact (maxConn_of_effect heffect).trans hs

/-- There is never more than one session too many. -/
theorem size_le_succ (h : Reach step ok (start maxConn ioThreadNum) s) :
    s.shared.size ≤ maxConn.toNat + 1 := by
  refine h.invariant (P := fun t => t.shared.size ≤ maxConn.toNat + 1) (Nat.zero_le _)
    fun u a t hu hs _ hstep => ?_
  obtain ⟨-, _, _, -, -, heffect⟩ := effect_of_step hstep
  rw [← maxConn_of_reach hu] at hs ⊢
  rcases size_of_effect heffect with hle | ⟨_, _, -, -, -, hroom, hle⟩ <;> omega

/-- A session that is on its way in has not joined. -/
theorem not_registered (h : Reach step ok (start maxConn ioThreadNum) s) {c : Call}
    {rest : Multiset Call} {sid : Nat} {st : Stage} (halive : s.shared.terminated = false)
    (hcalls : s.calls = c ::ₘ rest) (hst : c.stage = some (sid, st)) (hne : st ≠ .reading) :
    sid ∉ s.shared.connectionList := by
  intro hmem
  have hledger := ledger_of_reach h
  have hread := hledger.read halive sid hmem
  have hplace := hledger.place sid
  have hle := reads_le_visits rest sid
  have hsession : c.session = some sid := by rw [Call.session, hst]; rfl
  have hstage : c.stage ≠ some (sid, .reading) := by
    rw [hst]
    exact fun he => hne (congrArg Prod.snd (Option.some.inj he))
  rw [hcalls, reads_cons, if_neg hstage] at hread
  rw [places, hcalls, visits_cons, if_pos hsession] at hplace
  split_ifs at hplace <;> omega

end Runs

/-- A session comes to `join`, and the insertion does not throw. -/
def joinsNow : Action → Bool
  | .run (.joining _) .throws => false
  | .run (.joining _) _ => true
  | _ => false

theorem joinsNow_joining {o : Outcome} (ho : o ≠ .throws) (sid : Nat) :
    joinsNow (.run (.joining sid) o) = true := by
  cases o with
  | throws => exact absurd rfl ho
  | _ => rfl

/-- No session comes to `join` when `max_conn_` sessions are registered. -/
def JoinsBelow (s : State) (a : Action) : Prop :=
  joinsNow a = true → s.shared.size ≠ s.shared.maxConn.toNat

instance (s : State) (a : Action) : Decidable (JoinsBelow s a) :=
  inferInstanceAs (Decidable (_ → _))

/-- **The limit.** The registry never holds more than `max_conn_` sessions in a
run in which no session comes to `join` at a registry of `max_conn_` sessions;
and where the first one does, the limit is broken. -/
theorem limit_kept_iff (maxConn ioThreadNum : UInt32) (s : State)
    (h : Reach step JoinsBelow (start maxConn ioThreadNum) s) :
    s.shared.size ≤ maxConn.toNat ∧ ∀ a t, step s a = some t →
      (t.shared.size ≤ maxConn.toNat ↔ JoinsBelow s a) := by
  have hkeep : ∀ u a t, Reach step JoinsBelow (start maxConn ioThreadNum) u →
      u.shared.size ≤ maxConn.toNat → JoinsBelow u a → step u a = some t →
      t.shared.size ≤ maxConn.toNat := by
    intro u a t hu hsize hok hstep
    obtain ⟨-, _, _, -, -, heffect⟩ := effect_of_step hstep
    rw [← maxConn_of_reach hu] at hsize ⊢
    rcases size_of_effect heffect with hle | ⟨sid, o, rfl, ho, -, hroom, hle⟩
    · exact hle.trans hsize
    · have hbelow := hok (joinsNow_joining ho sid)
      omega
  have hsize := h.invariant (P := fun t => t.shared.size ≤ maxConn.toNat) (Nat.zero_le _) hkeep
  refine ⟨hsize, fun a t hstep => ⟨fun ht => ?_, fun hok => hkeep s a t h hsize hok hstep⟩⟩
  intro hjoins hfull
  obtain ⟨sid, o, rfl, ho⟩ : ∃ sid o, a = .run (.joining sid) o ∧ o ≠ .throws := by
    unfold joinsNow at hjoins
    split at hjoins
    · cases hjoins
    · rename_i sid o ho
      exact ⟨sid, o, rfl, ho⟩
    · cases hjoins
  obtain ⟨rest, hcalls, hinsert⟩ := step_joining ho hstep
  have hnew := not_registered h (effect_of_step hstep).1 hcalls rfl nofun
  have hlen : (s.shared.insert sid).size = s.shared.size + 1 := by
    rw [ServerTcp.insert, ServerTcp.size, List.length_insert, if_neg hnew]
    rfl
  rw [← maxConn_of_reach h, ← hfull, hinsert hfull.le] at ht
  omega

/-- Two sessions join within a limit of two. -/
theorem limit_kept_iff_two : ∃ s : State, s.shared.size = 2 ∧ s.shared.size ≤ (2 : UInt32).toNat := by
  have hrun : (exec (guarded step JoinsBelow) (start 2 1)
      (listens ++ spawns ++ joins 0 1 ++ joins 1 2)).map (fun s => s.shared.size) = some 2 := by
    decide +kernel
  obtain ⟨s, hs, hsize⟩ := Option.map_eq_some_iff.mp hrun
  exact ⟨s, hsize, (limit_kept_iff 2 1 s (Reach.of_exec_guarded _ hs)).1⟩

/-- **One too many.** With `max_conn_` one, two sessions are registered. -/
theorem limit_exceeded :
    ∃ s : State, Reach step always (start 1 1) s ∧ ¬ s.shared.size ≤ (1 : UInt32).toNat := by
  have hrun : (exec step (start 1 1) (listens ++ spawns ++ joins 0 1 ++ joins 1 2)).map
      (fun s => s.shared.size) = some 2 := by
    decide +kernel
  obtain ⟨s, hs, hsize⟩ := Option.map_eq_some_iff.mp hrun
  refine ⟨s, Reach.of_exec _ hs, ?_⟩
  rw [hsize]
  decide

end AsioTcp.Server
