import AsioTcp.AcceptChain

/-!
# One read activity for each session

A session comes in through one `handler_accept`, joins, and is then read by one
chain of `async_read` operations and their handlers; the chain ends in an error
branch, which takes the session out of the registry. `Ledger` is the invariant:
every session is in at most one place, and a registered one is being read.
-/

namespace AsioTcp.Server

open Transition Interleaving

def Call.session (c : Call) : Option Nat := c.stage.map Prod.fst

/-- The calls that have the session, on its way in or to read from it. -/
def visits (calls : Multiset Call) (sid : Nat) : Nat :=
  calls.countP fun c => c.session = some sid

/-- The read activities of a session: `session_tcp::start` between `join` and
`do_read`, outstanding reads, and handlers of reads that wait or run. -/
def reads (calls : Multiset Call) (sid : Nat) : Nat :=
  calls.countP fun c => c.stage = some (sid, .reading)

@[simp] theorem visits_zero (sid : Nat) : visits 0 sid = 0 := rfl

@[simp] theorem visits_cons (c : Call) (calls : Multiset Call) (sid : Nat) :
    visits (c ::ₘ calls) sid = visits calls sid + if c.session = some sid then 1 else 0 :=
  Multiset.countP_cons _ c calls

@[simp] theorem visits_singleton (c : Call) (sid : Nat) :
    visits {c} sid = if c.session = some sid then 1 else 0 :=
  countP_one _ c

@[simp] theorem visits_add (calls calls' : Multiset Call) (sid : Nat) :
    visits (calls + calls') sid = visits calls sid + visits calls' sid :=
  Multiset.countP_add _ calls calls'

@[simp] theorem reads_zero (sid : Nat) : reads 0 sid = 0 := rfl

@[simp] theorem reads_cons (c : Call) (calls : Multiset Call) (sid : Nat) :
    reads (c ::ₘ calls) sid = reads calls sid + if c.stage = some (sid, .reading) then 1 else 0 :=
  Multiset.countP_cons _ c calls

@[simp] theorem reads_singleton (c : Call) (sid : Nat) :
    reads {c} sid = if c.stage = some (sid, .reading) then 1 else 0 :=
  countP_one _ c

@[simp] theorem reads_add (calls calls' : Multiset Call) (sid : Nat) :
    reads (calls + calls') sid = reads calls sid + reads calls' sid :=
  Multiset.countP_add _ calls calls'

theorem reads_le_visits (calls : Multiset Call) (sid : Nat) : reads calls sid ≤ visits calls sid := by
  induction calls using Multiset.induction_on with
  | empty => exact Nat.le_refl 0
  | cons c calls ih =>
    rw [reads_cons, visits_cons]
    by_cases hc : c.stage = some (sid, .reading)
    · have hsession : c.session = some sid := by rw [Call.session, hc]; rfl
      rw [if_pos hc, if_pos hsession]
      omega
    · rw [if_neg hc]
      omega

theorem visits_plain {calls : Multiset Call} (h : Plain calls) (sid : Nat) :
    visits calls sid = 0 := by
  refine Multiset.countP_eq_zero.mpr fun c hc => ?_
  rw [Call.session, h c hc]
  exact nofun

theorem reads_plain {calls : Multiset Call} (h : Plain calls) (sid : Nat) :
    reads calls sid = 0 :=
  Nat.le_zero.mp (visits_plain h sid ▸ reads_le_visits calls sid)

theorem reads_cancelAccepts (s : ServerTcp) (sid : Nat) : reads s.cancelAccepts.2 sid = 0 := by
  refine Multiset.countP_eq_zero.mpr fun c hc => ?_
  obtain ⟨i, -, rfl⟩ := List.mem_map.mp (Multiset.mem_coe.mp hc)
  simp [Call.stage]

theorem visits_cancelAccepts (s : ServerTcp) (sid : Nat) :
    visits s.cancelAccepts.2 sid = s.accepting.count sid := by
  rw [ServerTcp.cancelAccepts, visits, Multiset.coe_countP]
  induction s.accepting with
  | nil => rfl
  | cons sid' rest ih =>
    rw [List.map_cons, List.countP_cons, ih, List.count_cons]
    simp [Call.session, Call.stage]

/-- `start_accept` gives the new session its one place. -/
theorem begins_visits {s : ServerTcp} {accepting : List Nat} {new : Multiset Call}
    (h : Begins s accepting new) (sid : Nat) :
    accepting.count sid + visits new sid =
      s.accepting.count sid + if s.created = sid then 1 else 0 := by
  cases h with
  | pending => simp only [List.count_cons, visits_zero, beq_iff_eq, Nat.add_zero]
  | closed => simp only [visits_singleton, Call.session, Call.stage, Option.map_some,
      Option.some.injEq]

theorem begins_reads {s : ServerTcp} {accepting : List Nat} {new : Multiset Call}
    (h : Begins s accepting new) (sid : Nat) : reads new sid = 0 := by
  cases h with
  | pending => rfl
  | closed => simp [Call.stage]

/-- The places of a session. -/
def places (s : ServerTcp) (calls : Multiset Call) (sid : Nat) : Nat :=
  s.accepting.count sid + visits calls sid

/-- No session is created, and no place of one. -/
theorem places_le {s s' : ServerTcp} {old new : Multiset Call}
    (hcreated : s'.created = s.created)
    (h : ∀ sid, places s' new sid ≤ places s old sid) :
    s.created ≤ s'.created ∧ ∀ sid, places s' new sid ≤ places s old sid +
      if s.created ≤ sid ∧ sid < s'.created then 1 else 0 :=
  ⟨hcreated.ge, fun sid => (h sid).trans (Nat.le_add_right _ _)⟩

/-- The places of a session that a step takes up are those it had, but for a
new session. -/
theorem places_of_effect {s s' : ServerTcp} {a : Action} {new rest : Multiset Call}
    (h : Effect s rest a s' new) : s.created ≤ s'.created ∧ ∀ sid,
      places s' new sid ≤ places s (taken a) sid +
        if s.created ≤ sid ∧ sid < s'.created then 1 else 0 := by
  cases h with
  | quiet hsame _ hnew =>
    refine places_le hsame.created fun sid => ?_
    rw [places, places, hsame.accepting, visits_plain hnew]
    omega
  | @accept sid error hmem =>
    refine places_le rfl fun i => ?_
    have hpos : 0 < s.accepting.count sid := List.count_pos_iff.mpr hmem
    show (s.accepting.erase sid).count i + _ ≤ s.accepting.count i + 0
    rw [List.count_erase, visits_singleton]
    by_cases hi : sid = i
    · subst hi
      simp only [Call.session, Call.stage, Option.map_some, beq_self_eq_true, ↓reduceIte]
      omega
    · simp [Call.session, Call.stage, hi]
  | @move c d o s' extra hsame hstage hextra =>
    refine places_le hsame.created fun sid => ?_
    have hsession : d.session = c.session := congrArg (Option.map Prod.fst) hstage
    rw [places, places, hsame.accepting, visits_cons, visits_plain hextra, taken,
      visits_singleton, hsession]
    omega
  | refuse | joinFailed | crash =>
    refine places_le rfl fun sid => ?_
    rw [places, places, visits_plain]
    · exact Nat.add_le_add_left (Nat.zero_le _) _
    · first | exact plain_singleton rfl | exact plain_zero
  | pass | count | assign | join =>
    refine places_le rfl fun sid => ?_
    rw [places, places, taken, visits_singleton, visits_singleton]
    exact Nat.le_refl _
  | leave _ hnew =>
    refine places_le rfl fun sid => ?_
    rw [places, places, visits_plain hnew]
    exact Nat.add_le_add_left (Nat.zero_le _) _
  | @create o accepting new hbegins =>
    refine ⟨Nat.le_succ _, fun sid => ?_⟩
    have hplace := begins_visits hbegins sid
    show accepting.count sid + visits new sid ≤ s.accepting.count sid + _ +
      if s.created ≤ sid ∧ sid < s.created + 1 then 1 else 0
    split_ifs at hplace ⊢ <;> omega
  | @restart o accepting new hbegins =>
    refine ⟨Nat.le_succ _, fun sid => ?_⟩
    have hplace := begins_visits hbegins sid
    have hresize : (Call.start .resize).session ≠ some sid := by
      intro h
      cases h
    show accepting.count sid + visits (.start .resize ::ₘ new) sid ≤ s.accepting.count sid + _ +
      if s.created ≤ sid ∧ sid < s.created + 1 then 1 else 0
    rw [visits_cons, if_neg hresize]
    split_ifs at hplace ⊢ <;> omega
  | @cancel p p' o s' hsame =>
    refine places_le hsame.created fun sid => ?_
    have hstop : (Call.stop p').session ≠ some sid := by
      intro h
      cases h
    rw [places, places, hsame.accepting, visits_cons, if_neg hstop, visits_cancelAccepts]
    show 0 + (s.accepting.count sid + 0) ≤ _
    omega
  | @disconnect f s' new hsame hnew =>
    have hd := (disconnect_spec f s.connectionList s).same
    have haccepting : s'.accepting = s.accepting := by rw [hsame.accepting, hd]
    refine places_le (by rw [hsame.created, hd]) fun sid => ?_
    rw [places, places, haccepting, visits_plain hnew]
    omega

/-- A session that is registered after a step was so before and is read as
before, or it has joined with the step. -/
theorem reads_of_effect {s s' : ServerTcp} {a : Action} {new rest : Multiset Call}
    (h : Effect s rest a s' new) (hnodup : s.connectionList.Nodup) {sid : Nat}
    (hsid : sid ∈ s'.connectionList) (halive : s'.terminated = false) :
    (sid ∈ s.connectionList ∧ reads new sid = reads (taken a) sid) ∨
      (visits (taken a) sid = 1 ∧ reads new sid = 1) := by
  cases h with
  | quiet hsame hold hnew =>
    rw [hsame.connectionList] at hsid
    exact Or.inl ⟨hsid, by rw [reads_plain hnew, reads_plain hold]⟩
  | @move c d o s' extra hsame hstage hextra =>
    rw [hsame.connectionList] at hsid
    refine Or.inl ⟨hsid, ?_⟩
    rw [reads_cons, reads_plain hextra, taken, reads_singleton, hstage, Nat.zero_add]
  | accept | refuse | pass | count | assign | joinFailed =>
    exact Or.inl ⟨hsid, by simp [Call.stage]⟩
  | @join joined =>
    by_cases he : sid = joined
    · subst he
      exact Or.inr ⟨by simp [Call.session, Call.stage], by simp [Call.stage]⟩
    · refine Or.inl ⟨(List.mem_insert_iff.mp hsid).resolve_left he, ?_⟩
      simp [Call.stage, Ne.symm he]
  | @leave left c o new hc hnew =>
    obtain ⟨hne, hmem⟩ := hnodup.mem_erase_iff.mp hsid
    have hother : c.stage ≠ some (sid, .reading) := by
      intro hstage
      rcases hc _ hstage with he | he
      · cases he
      · exact hne (congrArg Prod.fst he)
    refine Or.inl ⟨hmem, ?_⟩
    rw [reads_plain hnew, taken, reads_singleton, if_neg hother]
  | create hbegins =>
    refine Or.inl ⟨hsid, ?_⟩
    rw [begins_reads hbegins]
    simp [Call.stage]
  | restart hbegins =>
    refine Or.inl ⟨hsid, ?_⟩
    rw [reads_cons, begins_reads hbegins]
    simp [Call.stage]
  | cancel hsame =>
    rw [hsame.connectionList] at hsid
    refine Or.inl ⟨hsid, ?_⟩
    rw [reads_cons, reads_cancelAccepts]
    simp [Call.stage]
  | @disconnect f s' new hsame hnew =>
    have hlist := (disconnect_spec f s.connectionList s).list
    rw [hsame.connectionList, hlist] at hsid
    split at hsid
    · exact Or.inl ⟨hsid, by rw [reads_plain hnew]; simp [Call.stage]⟩
    · cases hsid
  | crash => cases halive

theorem nodup_of_effect {s s' : ServerTcp} {a : Action} {new rest : Multiset Call}
    (h : Effect s rest a s' new) (hnodup : s.connectionList.Nodup) : s'.connectionList.Nodup := by
  cases h with
  | quiet hsame | move hsame | cancel hsame => rw [hsame.connectionList]; exact hnodup
  | accept | refuse | pass | count | assign | joinFailed | crash => exact hnodup
  | create | restart => exact hnodup
  | join => exact hnodup.insert
  | leave => exact hnodup.erase _
  | @disconnect f s' new hsame =>
    rw [hsame.connectionList, (disconnect_spec f s.connectionList s).list]
    split
    · exact hnodup
    · exact List.nodup_nil

structure Ledger (s : State) : Prop where
  /-- a session is in one place at most, and has none before it is created -/
  place : ∀ sid, places s.shared s.calls sid ≤ if sid < s.shared.created then 1 else 0
  nodup : s.shared.connectionList.Nodup
  read : s.shared.terminated = false → ∀ sid ∈ s.shared.connectionList, reads s.calls sid = 1

theorem Ledger.step {s t : State} {a : Action} (h : Ledger s) (hs : step s a = some t) :
    Ledger t := by
  obtain ⟨halive, new, rest, hcalls, ht, heffect⟩ := effect_of_step hs
  obtain ⟨hcreated, hvisits⟩ := places_of_effect heffect
  refine ⟨fun sid => ?_, nodup_of_effect heffect h.nodup, fun htalive sid hsid => ?_⟩
  · have hplace := h.place sid
    have hstep := hvisits sid
    rw [places, hcalls, visits_add] at hplace
    rw [places, places] at hstep
    rw [places, ht, visits_add]
    split_ifs at hplace hstep ⊢ <;> omega
  · rw [ht, reads_add]
    rcases reads_of_effect heffect h.nodup hsid htalive with ⟨hmem, hreads⟩ | ⟨htaken, hone⟩
    · have hread := h.read halive sid hmem
      rw [hcalls, reads_add] at hread
      omega
    · -- the session that joins has its one place in the call that joins it
      have hplace := h.place sid
      have hrest := reads_le_visits rest sid
      rw [places, hcalls, visits_add] at hplace
      split_ifs at hplace <;> omega

theorem ledger_of_reach {maxConn ioThreadNum : UInt32} {ok : State → Action → Prop} {s : State}
    (h : Reach step ok (start maxConn ioThreadNum) s) : Ledger s := by
  refine h.invariant ⟨fun sid => Nat.zero_le _, List.nodup_nil, fun _ sid hsid => ?_⟩
    fun _ _ _ _ hs _ hstep => hs.step hstep
  cases hsid

/-- **One read activity.** In every state of every run no session has two read
activities, and, as long as no handler has thrown, every session in
`connection_list_` has exactly one. -/
theorem registered_session_is_read (maxConn ioThreadNum : UInt32) (s : State)
    (h : Reach step always (start maxConn ioThreadNum) s) :
    (∀ sid, reads s.calls sid ≤ 1) ∧
      (s.shared.terminated = false → ∀ sid ∈ s.shared.connectionList, reads s.calls sid = 1) := by
  have hledger := ledger_of_reach h
  refine ⟨fun sid => ?_, hledger.read⟩
  have hplace := hledger.place sid
  have hle := reads_le_visits s.calls sid
  rw [places] at hplace
  split_ifs at hplace <;> omega

/-- A session that has joined is being read. -/
theorem registered_session_is_read_one : ∃ s : State, s.shared.connectionList = [0] ∧
    reads s.calls 0 = 1 := by
  have hrun : (exec step (start 18 1) (listens ++ spawns ++ joins 0 1)).map (fun s =>
      (s.shared.connectionList, s.shared.terminated)) = some ([0], false) := by
    decide +kernel
  obtain ⟨s, hs, hseen⟩ := Option.map_eq_some_iff.mp hrun
  simp only [Prod.mk.injEq] at hseen
  obtain ⟨hlist, halive⟩ := hseen
  have hread := (registered_session_is_read 18 1 s (Reach.of_exec _ hs)).2 halive
  exact ⟨s, hlist, hread 0 (by rw [hlist]; exact List.mem_singleton_self 0)⟩

end AsioTcp.Server
