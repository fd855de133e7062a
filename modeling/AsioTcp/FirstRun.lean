import AsioTcp.ConnectionLimit
import Mathlib.Data.List.Basic

/-!
# The first run of a server

Up to the first `stop` there is one accept chain, so between `can_join` and
`join` of one `handler_accept` no other session joins, and no other handler
uses `curr_client_id_`. `first_run` draws the conclusions: the `assert(false)`
of `session_tcp::start` is out of reach, and the sessions are numbered 1, 2, 3
in the order in which they join.
-/

namespace AsioTcp.Server

open Transition Interleaving

def stopping : Action → Bool
  | .enter .stop => true
  | _ => false

/-- `stop` is not called. -/
def NoStop (_ : State) (a : Action) : Prop := stopping a = false

/-! ## One `start` -/

/-- `start`, before it has come to its `start_accept`. -/
def Call.early : Call → Bool
  | .start .reset | .start .acceptor | .start .listen | .start .startAccept => true
  | _ => false

def early (calls : Multiset Call) : Nat := calls.countP fun c => c.early = true

@[simp] theorem early_zero : early 0 = 0 := rfl

@[simp] theorem early_cons (c : Call) (calls : Multiset Call) :
    early (c ::ₘ calls) = early calls + if c.early then 1 else 0 :=
  Multiset.countP_cons _ c calls

@[simp] theorem early_singleton (c : Call) : early {c} = if c.early then 1 else 0 :=
  countP_one _ c

@[simp] theorem early_add (calls calls' : Multiset Call) :
    early (calls + calls') = early calls + early calls' :=
  Multiset.countP_add _ calls calls'

theorem early_eq_zero {calls : Multiset Call} (h : ∀ c ∈ calls, c.control = false) :
    early calls = 0 := by
  refine Multiset.countP_eq_zero.mpr fun c hc => ?_
  have hcontrol := h c hc
  cases c <;> first | exact Bool.false_ne_true | cases hcontrol

/-- `start` has been called once at most, and `stop` not at all. -/
structure Once (s : State) : Prop where
  starts : s.shared.starts + early s.calls ≤ if s.shared.phase = .stopped then 0 else 1
  noStop : ∀ p, .stop p ∉ s.calls

/-- A step of `start` uses up its call. -/
theorem early_start {s s' : ServerTcp} {new : Multiset Call} {point : StartPoint} {o : Outcome}
    (h : startNext s point o = some (s', new)) :
    s'.starts + early new ≤ s.starts + early {.start point} ∧ (∀ p, .stop p ∉ new) ∧
      (s'.phase = s.phase ∨ s'.phase = .started) := by
  have hone : ∀ c : Call, (∀ p, c ≠ .stop p) → ∀ p, .stop p ∉ ({c} : Multiset Call) :=
    fun c hc p hp => hc p (Multiset.mem_singleton.mp hp).symm
  unfold startNext at h
  split at h
  · cases h
    exact ⟨by simp [Call.early], hone _ nofun, Or.inl rfl⟩
  · split at h <;> cases h
    · exact ⟨Nat.le_add_right _ _, nofun, Or.inr rfl⟩
    · exact ⟨by simp [Call.early], hone _ nofun, Or.inl rfl⟩
  · cases h
    exact ⟨by simp [Call.early], hone _ nofun, Or.inl rfl⟩
  · obtain ⟨accepting, calls, hr, hbegins⟩ := startAccept_spec s.resetId
    rw [hr] at h
    cases h
    refine ⟨?_, fun p hp => ?_, Or.inl rfl⟩
    · show s.starts + 1 + _ ≤ _
      cases hbegins <;> simp [Call.early]
    · rcases Multiset.mem_cons.mp hp with hp | hp
      · cases hp
      · cases hbegins with
        | pending => exact absurd hp (Multiset.notMem_zero _)
        | closed => exact hone (.accepted _ true) nofun p hp
  · cases h
    exact ⟨by simp [Call.early], hone _ nofun, Or.inl rfl⟩
  · split at h <;> cases h
    · exact ⟨by simp [Call.early], hone _ nofun, Or.inl rfl⟩
    · exact ⟨Nat.le_add_right _ _, nofun, Or.inr rfl⟩
  · cases h
    exact ⟨Nat.le_add_right _ _, nofun, Or.inr rfl⟩
  · cases h

theorem once_step {s t : State} {a : Action} (h : Once s) (hok : NoStop s a)
    (hs : step s a = some t) : Once t := by
  have hstarts := h.starts
  cases hcontrol : controls a with
  | false =>
    obtain ⟨-, new, rest, hcalls, ht, heffect⟩ := effect_of_step hs
    obtain ⟨hsame, hnew, -⟩ := handled_of_effect heffect hcontrol
    rw [hcalls, early_add] at hstarts
    constructor
    · rw [ht, early_add, early_eq_zero hnew, hsame.starts, hsame.phase]
      omega
    · intro p hp
      rw [ht] at hp
      rcases Multiset.mem_add.mp hp with hp | hp
      · exact absurd (hnew _ hp) nofun
      · exact h.noStop p (hcalls ▸ Multiset.mem_add.mpr (Or.inr hp))
  | true =>
    cases control_of_step hs hcontrol with
    | enterStart hphase hshared hcalls =>
      rw [if_pos hphase] at hstarts
      constructor
      · rw [hcalls, hshared, early_cons]
        show s.shared.starts + (early s.calls + 1) ≤ 1
        omega
      · intro p hp
        rw [hcalls] at hp
        rcases Multiset.mem_cons.mp hp with hp | hp
        · cases hp
        · exact h.noStop p hp
    | enterStop => cases hok
    | @start p o rest new hcalls hnext ht =>
      obtain ⟨hle, hnew, hphase⟩ := early_start hnext
      rw [hcalls, early_cons, ← early_singleton] at hstarts
      constructor
      · rw [ht, early_add]
        rcases hphase with hphase | hphase
        · rw [hphase]
          omega
        · rw [hphase, if_neg nofun]
          split at hstarts <;> omega
      · intro q hq
        rw [ht] at hq
        rcases Multiset.mem_add.mp hq with hq | hq
        · exact hnew q hq
        · exact h.noStop q (hcalls ▸ Multiset.mem_cons_of_mem hq)
    | @stop p o rest new hcalls =>
      have hmem : .stop p ∈ s.calls := by
        rw [hcalls]
        exact Multiset.mem_cons_self _ _
      exact absurd hmem (h.noStop p)

section Reachable

variable {maxConn ioThreadNum : UInt32} {s : State}

theorem once_of_reach (h : Reach step NoStop (start maxConn ioThreadNum) s) : Once s := by
  refine h.invariant ⟨Nat.le_refl 0, fun p hp => ?_⟩ fun _ _ _ _ hs hok hstep =>
    once_step hs hok hstep
  exact absurd hp (Multiset.notMem_zero _)

/-- The one accept chain. -/
theorem chains_le_one (h : Reach step NoStop (start maxConn ioThreadNum) s) : chains s ≤ 1 := by
  have hstarts := (once_of_reach h).starts
  have hchains := (chainCount_of_reach (h.mono fun _ _ _ => trivial)).le
  split at hstarts <;> omega

end Reachable

/-! ## Sessions that have joined -/

/-- A session that has joined is not on its way in. -/
structure Arrived (s : State) (sid : Nat) : Prop where
  created : sid < s.shared.created
  accepting : sid ∉ s.shared.accepting
  stage : ∀ c ∈ s.calls, ∀ st, c.stage = some (sid, st) → st = .reading

/-- A session that is on its way in after a step was so before, or is new. -/
theorem stage_of_effect {s s' : ServerTcp} {rest new : Multiset Call} {a : Action}
    (h : Effect s rest a s' new) {c : Call} (hc : c ∈ new) {sid : Nat} {st : Stage}
    (hst : c.stage = some (sid, st)) : st = .reading ∨ sid = s.created ∨ sid ∈ s.accepting ∨
      ∃ d ∈ taken a, ∃ st', d.stage = some (sid, st') ∧ (st' = .reading → st = .reading) := by
  have hone : ∀ {d e : Call} {x : Stage}, e ∈ ({d} : Multiset Call) → e.stage = some (sid, st) →
      ∀ i, d.stage = some (i, x) → i = sid := by
    intro d e x he hst i hd
    obtain rfl := Multiset.mem_singleton.mp he
    rw [hd] at hst
    cases hst
    rfl
  cases h with
  | quiet _ _ hnew => exact absurd (hnew c hc) (by rw [hst]; nofun)
  | accept hmem =>
    rw [← hone hc hst _ rfl]
    exact Or.inr (Or.inr (Or.inl hmem))
  | @move e d o s' extra _ hstage hextra =>
    rcases Multiset.mem_cons.mp hc with rfl | hc
    · exact Or.inr (Or.inr (Or.inr ⟨e, Multiset.mem_singleton_self e, st, hstage ▸ hst, id⟩))
    · exact absurd (hextra c hc) (by rw [hst]; nofun)
  | refuse | joinFailed =>
    obtain rfl := Multiset.mem_singleton.mp hc
    cases hst
  | pass | count | assign =>
    rw [← hone hc hst _ rfl]
    exact Or.inr (Or.inr (Or.inr ⟨_, Multiset.mem_singleton_self _, _, rfl, nofun⟩))
  | join =>
    obtain rfl := Multiset.mem_singleton.mp hc
    cases hst
    exact Or.inl rfl
  | leave _ hnew => exact absurd (hnew c hc) (by rw [hst]; nofun)
  | create hbegins =>
    cases hbegins with
    | pending => exact absurd hc (Multiset.notMem_zero c)
    | closed => exact Or.inr (Or.inl (hone hc hst _ rfl).symm)
  | restart hbegins =>
    rcases Multiset.mem_cons.mp hc with rfl | hc
    · cases hst
    · cases hbegins with
      | pending => exact absurd hc (Multiset.notMem_zero c)
      | closed => exact Or.inr (Or.inl (hone hc hst _ rfl).symm)
  | cancel =>
    rcases Multiset.mem_cons.mp hc with rfl | hc
    · cases hst
    · obtain ⟨i, hi, rfl⟩ := List.mem_map.mp (Multiset.mem_coe.mp hc)
      cases hst
      exact Or.inr (Or.inr (Or.inl hi))
  | disconnect _ hnew => exact absurd (hnew c hc) (by rw [hst]; nofun)
  | crash => exact absurd hc (Multiset.notMem_zero c)

theorem accepting_of_effect {s s' : ServerTcp} {rest new : Multiset Call} {a : Action}
    (h : Effect s rest a s' new) {sid : Nat} (hsid : sid ∈ s'.accepting) :
    sid ∈ s.accepting ∨ sid = s.created := by
  cases h with
  | quiet hsame | move hsame => exact Or.inl (hsame.accepting ▸ hsid)
  | accept => exact Or.inl (List.mem_of_mem_erase hsid)
  | create hbegins | restart hbegins =>
    cases hbegins with
    | pending => exact (List.mem_cons.mp hsid).symm
    | closed => exact Or.inl hsid
  | cancel hsame => exact absurd (hsame.accepting ▸ hsid) List.not_mem_nil
  | @disconnect f s' new hsame =>
    rw [hsame.accepting, (disconnect_spec f s.connectionList s).same] at hsid
    exact Or.inl hsid
  | _ => exact Or.inl hsid

theorem admissions_of_effect {s s' : ServerTcp} {rest new : Multiset Call} {a : Action}
    (h : Effect s rest a s' new) : s'.admissions = s.admissions ∨
      ∃ sid o, a = .run (.joining sid) o ∧ s' = s.insert sid ∧ new = {.joined sid} := by
  cases h with
  | quiet hsame | move hsame | cancel hsame => exact Or.inl hsame.admissions
  | @join sid o => exact Or.inr ⟨sid, o, rfl, rfl, rfl⟩
  | @disconnect f s' new hsame =>
    left
    rw [hsame.admissions, (disconnect_spec f s.connectionList s).same]
  | _ => exact Or.inl rfl

theorem arrived_step {s t : State} {a : Action} (hledger : Ledger s)
    (h : ∀ sid ∈ s.shared.admissions, Arrived s sid) (hs : step s a = some t) :
    ∀ sid ∈ t.shared.admissions, Arrived t sid := by
  obtain ⟨halive, new, rest, hcalls, ht, heffect⟩ := effect_of_step hs
  have hcreated := (places_of_effect heffect).1
  -- a session that is not on its way in does not come to be so
  have hkeep : ∀ sid, Arrived s sid → Arrived t sid := by
    intro sid harrived
    refine ⟨harrived.created.trans_le hcreated, fun hmem => ?_, fun c hc st hst => ?_⟩
    · rcases accepting_of_effect heffect hmem with hmem | rfl
      · exact harrived.accepting hmem
      · exact absurd harrived.created (Nat.lt_irrefl _)
    · rw [ht] at hc
      rcases Multiset.mem_add.mp hc with hc | hc
      · rcases stage_of_effect heffect hc hst with hread | rfl | hmem | ⟨d, hd, st', hst', hread⟩
        · exact hread
        · exact absurd harrived.created (Nat.lt_irrefl _)
        · exact absurd hmem harrived.accepting
        · exact hread (harrived.stage d (hcalls ▸ Multiset.mem_add.mpr (Or.inl hd)) st' hst')
      · exact harrived.stage c (hcalls ▸ Multiset.mem_add.mpr (Or.inr hc)) st hst
  intro sid hsid
  rcases admissions_of_effect heffect with hsame | ⟨joined, o, rfl, hinsert, hnew⟩
  · exact hkeep sid (h sid (hsame ▸ hsid))
  · rw [hinsert] at hsid
    rcases List.mem_append.mp hsid with hsid | hsid
    · exact hkeep sid (h sid hsid)
    · -- the call that joins it is the one place of the session
      obtain rfl := List.mem_singleton.mp hsid
      have hplace := hledger.place sid
      have hone : visits (taken (.run (.joining sid) o)) sid = 1 := by
        simp [Call.session, Call.stage]
      rw [places, hcalls, visits_add, hone] at hplace
      have hlt : sid < s.shared.created := by
        by_contra hge
        rw [if_neg hge] at hplace
        omega
      rw [if_pos hlt] at hplace
      refine ⟨hlt.trans_le hcreated, fun hmem => ?_, fun c hc st hst => ?_⟩
      · rcases accepting_of_effect heffect hmem with hmem | he
        · have hpos := List.count_pos_iff.mpr hmem
          omega
        · exact absurd he hlt.ne
      · rw [ht, hnew] at hc
        rcases Multiset.mem_add.mp hc with hc | hc
        · obtain rfl := Multiset.mem_singleton.mp hc
          cases hst
          rfl
        · have hsession : c.session = some sid := by rw [Call.session, hst]; rfl
          have hpos : 0 < visits rest sid := Multiset.countP_pos.mpr ⟨c, hc, hsession⟩
          omega

theorem arrived_of_reach {maxConn ioThreadNum : UInt32} {ok : State → Action → Prop} {s : State}
    (h : Reach step ok (start maxConn ioThreadNum) s) :
    ∀ sid ∈ s.shared.admissions, Arrived s sid := by
  refine h.invariant (P := fun t => ∀ sid ∈ t.shared.admissions, Arrived t sid)
    (fun sid hsid => absurd hsid List.not_mem_nil) ?_
  exact fun u a t hu harrived _ hstep => arrived_step (ledger_of_reach hu) harrived hstep

/-! ## Room for the session on its way in -/

/-- `can_join` has returned true for the session, and it has not joined. -/
def Stage.entering : Stage → Bool
  | .admitted | .counted _ | .numbered => true
  | .arriving | .reading => false

/-- There is room for a session that `can_join` has let in. -/
def Room (s : State) : Prop :=
  ∀ c ∈ s.calls, ∀ sid st, c.stage = some (sid, st) → st.entering = true →
    s.shared.size ≤ s.shared.maxConn.toNat

theorem inChain_of_entering {c : Call} {sid : Nat} {st : Stage} (hst : c.stage = some (sid, st))
    (hentering : st.entering = true) : c.inChain = true := by
  cases c <;> cases hst <;> first | rfl | cases hentering

/-- Next to a handler of the one chain there is no other. -/
theorem rest_not_inChain {s : State} {c : Call} {rest : Multiset Call} (hone : chains s ≤ 1)
    (hcalls : s.calls = {c} + rest) (hc : c.inChain = true) : ∀ d ∈ rest, d.inChain = false := by
  intro d hd
  rw [chains, hcalls, handlers_add, handlers_singleton, hc, if_pos rfl] at hone
  have hzero : handlers rest = 0 := by omega
  exact eq_false_of_ne_true (Multiset.countP_eq_zero.mp hzero d hd)

/-- A session that is entering after a step was so before, or `can_join` has
just let it in. -/
theorem entering_of_effect {s s' : ServerTcp} {rest new : Multiset Call} {a : Action}
    (h : Effect s rest a s' new) {c : Call} (hc : c ∈ new) {sid : Nat} {st : Stage}
    (hst : c.stage = some (sid, st)) (hentering : st.entering = true) :
    s.canJoin = true ∨
      ∃ d ∈ taken a, ∃ st', d.stage = some (sid, st') ∧ st'.entering = true := by
  have hplain : ∀ {calls}, Plain calls → c ∈ calls → False := by
    intro calls hcalls hmem
    have hnone := hcalls c hmem
    rw [hst] at hnone
    cases hnone
  have hbegins : ∀ {s : ServerTcp} {accepting calls}, Begins s accepting calls → c ∈ calls → False := by
    intro s accepting calls hb hmem
    cases hb with
    | pending => exact absurd hmem (Multiset.notMem_zero c)
    | closed =>
      obtain rfl := Multiset.mem_singleton.mp hmem
      cases hst
      cases hentering
  cases h with
  | quiet _ _ hnew => exact (hplain hnew hc).elim
  | @move e d o s' extra _ hstage hextra =>
    rcases Multiset.mem_cons.mp hc with rfl | hc
    · exact Or.inr ⟨e, Multiset.mem_singleton_self e, st, hstage ▸ hst, hentering⟩
    · exact (hplain hextra hc).elim
  | pass hcan => exact Or.inl hcan
  | accept | refuse | joinFailed | join =>
    obtain rfl := Multiset.mem_singleton.mp hc
    cases hst
    try cases hentering
  | count | assign =>
    obtain rfl := Multiset.mem_singleton.mp hc
    cases hst
    exact Or.inr ⟨_, Multiset.mem_singleton_self _, _, rfl, rfl⟩
  | leave _ hnew => exact (hplain hnew hc).elim
  | create hb => exact (hbegins hb hc).elim
  | restart hb =>
    rcases Multiset.mem_cons.mp hc with rfl | hc
    · cases hst
    · exact (hbegins hb hc).elim
  | cancel =>
    rcases Multiset.mem_cons.mp hc with rfl | hc
    · cases hst
    · obtain ⟨i, -, rfl⟩ := List.mem_map.mp (Multiset.mem_coe.mp hc)
      cases hst
      cases hentering
  | disconnect _ hnew => exact (hplain hnew hc).elim
  | crash => exact absurd hc (Multiset.notMem_zero c)

theorem room_step {s t : State} {a : Action} (hone : chains s ≤ 1) (h : Room s)
    (hs : step s a = some t) : Room t := by
  obtain ⟨halive, new, rest, hcalls, ht, heffect⟩ := effect_of_step hs
  intro c hc sid st hst hentering
  rw [maxConn_of_effect heffect]
  rw [ht] at hc
  rcases size_of_effect heffect with hle | ⟨joined, o, rfl, -, rfl, -⟩
  · apply hle.trans
    rcases Multiset.mem_add.mp hc with hc | hc
    · rcases entering_of_effect heffect hc hst hentering with hcan | ⟨d, hd, st', hst', hent'⟩
      · simp only [ServerTcp.canJoin, Bool.not_eq_true', decide_eq_false_iff_not] at hcan
        exact Nat.not_lt.mp hcan
      · exact h d (hcalls ▸ Multiset.mem_add.mpr (Or.inl hd)) sid st' hst' hent'
    · exact h c (hcalls ▸ Multiset.mem_add.mpr (Or.inr hc)) sid st hst hentering
  · -- the handler that joins is the one of the chain, and has come to its end
    exfalso
    rcases Multiset.mem_add.mp hc with hc | hc
    · obtain rfl := Multiset.mem_singleton.mp hc
      cases hst
      cases hentering
    · have hout := rest_not_inChain hone hcalls rfl c hc
      rw [inChain_of_entering hst hentering] at hout
      cases hout

/-! ## The numbering -/

/-- The sessions that have their id and have not joined. -/
def numbered (calls : Multiset Call) : Nat :=
  calls.countP fun c => c.stage.map Prod.snd = some .numbered

@[simp] theorem numbered_zero : numbered 0 = 0 := rfl

@[simp] theorem numbered_cons (c : Call) (calls : Multiset Call) :
    numbered (c ::ₘ calls) =
      numbered calls + if c.stage.map Prod.snd = some .numbered then 1 else 0 :=
  Multiset.countP_cons _ c calls

@[simp] theorem numbered_singleton (c : Call) :
    numbered {c} = if c.stage.map Prod.snd = some .numbered then 1 else 0 :=
  countP_one _ c

@[simp] theorem numbered_add (calls calls' : Multiset Call) :
    numbered (calls + calls') = numbered calls + numbered calls' :=
  Multiset.countP_add _ calls calls'

/-- No call is between `can_join` and `join`. -/
def NoneEntering (calls : Multiset Call) : Prop :=
  ∀ c ∈ calls, ∀ sid st, c.stage = some (sid, st) → st.entering = false

theorem NoneEntering.plain {calls : Multiset Call} (h : Plain calls) : NoneEntering calls := by
  intro c hc sid st hst
  rw [h c hc] at hst
  cases hst

theorem NoneEntering.one {c : Call} (h : ∀ sid st, c.stage = some (sid, st) → st.entering = false) :
    NoneEntering {c} := by
  intro d hd
  obtain rfl := Multiset.mem_singleton.mp hd
  exact h

theorem NoneEntering.begins {s : ServerTcp} {accepting : List Nat} {calls : Multiset Call}
    (h : Begins s accepting calls) : NoneEntering calls := by
  cases h with
  | pending => exact .plain plain_zero
  | closed => exact .one fun _ _ hst => by cases hst; rfl

theorem NoneEntering.cons {c : Call} {calls : Multiset Call} (hc : c.stage = none)
    (h : NoneEntering calls) : NoneEntering (c ::ₘ calls) := by
  intro d hd sid st hst
  rcases Multiset.mem_cons.mp hd with rfl | hd
  · rw [hc] at hst
    cases hst
  · exact h d hd sid st hst

theorem NoneEntering.cancelAccepts (s : ServerTcp) : NoneEntering s.cancelAccepts.2 := by
  intro c hc sid st hst
  obtain ⟨i, -, rfl⟩ := List.mem_map.mp (Multiset.mem_coe.mp hc)
  cases hst
  rfl

theorem NoneEntering.numbered_eq_zero {calls : Multiset Call} (h : NoneEntering calls) :
    numbered calls = 0 := by
  apply Multiset.countP_eq_zero.mpr
  intro c hc hst
  obtain ⟨⟨sid, st⟩, hstage, rfl⟩ := Option.map_eq_some_iff.mp hst
  exact absurd (h c hc sid _ hstage) nofun

/-- The sessions that have joined have the ids from 1 on, and the counter
stands at the next one. -/
structure Numbering (s : State) : Prop where
  ids : ∀ k sid, s.shared.admissions[k]? = some sid →
    (s.shared.clients sid).clientId = .ofNat (k + 1)
  /-- the number of the next session to join -/
  own : ∀ c ∈ s.calls, ∀ sid, c.stage = some (sid, .numbered) →
    (s.shared.clients sid).clientId = .ofNat (s.shared.admissions.length + 1)
  counted : ∀ c ∈ s.calls, ∀ sid id, c.stage = some (sid, .counted id) →
    id = s.shared.currClientId
  next : s.shared.terminated = false →
    s.shared.currClientId = .ofNat (s.shared.admissions.length + numbered s.calls + 1)

/-- What the calls `old` become gives out no id, and lets no session join. -/
structure Keeps (s s' : ServerTcp) (old new : Multiset Call) : Prop where
  counter : s'.currClientId = s.currClientId
  admissions : s'.admissions = s.admissions
  ids : ∀ sid < s.created, (s'.clients sid).clientId = (s.clients sid).clientId
  calls : ∀ c ∈ new, ∀ sid st, c.stage = some (sid, st) → st.entering = true →
    st = .admitted ∨ st = .counted s.currClientId ∨ ∃ d ∈ old, d.stage = some (sid, st)
  count : s'.terminated = false → numbered new = numbered old

theorem Keeps.none {s s' : ServerTcp} {old new : Multiset Call}
    (hcounter : s'.currClientId = s.currClientId) (hadmissions : s'.admissions = s.admissions)
    (hids : ∀ sid < s.created, (s'.clients sid).clientId = (s.clients sid).clientId)
    (hold : NoneEntering old) (hnew : NoneEntering new) : Keeps s s' old new := by
  refine ⟨hcounter, hadmissions, hids, fun c hc sid st hst hentering => ?_, fun _ => ?_⟩
  · rw [hnew c hc sid st hst] at hentering
    cases hentering
  · rw [hold.numbered_eq_zero, hnew.numbered_eq_zero]

/-- What a step does to the numbering. -/
inductive Numbers (s : ServerTcp) : Action → ServerTcp → Multiset Call → Prop
  | keep {a : Action} {s' : ServerTcp} {new : Multiset Call} :
      Keeps s s' (taken a) new → Numbers s a s' new
  | assign {sid : Nat} {id : UInt32} {o : Outcome} :
      Numbers s (.run (.counted sid id) o) (s.assignId sid id) {.starting sid}
  | join {sid : Nat} {o : Outcome} : Numbers s (.run (.joining sid) o) (s.insert sid) {.joined sid}
  | joinFailed {sid : Nat} {o : Outcome} : s.maxConn.toNat < s.size →
      Numbers s (.run (.joining sid) o) s.failAssert {.startAccept}
  | restart {o : Outcome} {s' : ServerTcp} {new : Multiset Call} :
      s'.currClientId = 1 → s'.admissions = s.admissions → NoneEntering new →
      s'.starts = s.starts + 1 → Numbers s (.run (.start .startAccept) o) s' new

theorem numbers_of_effect {s s' : ServerTcp} {rest new : Multiset Call} {a : Action}
    (h : Effect s rest a s' new) : Numbers s a s' new := by
  have hids : ∀ s' : ServerTcp, s'.clients = s.clients →
      ∀ sid < s.created, (s'.clients sid).clientId = (s.clients sid).clientId := by
    intro s' hclients sid _
    rw [hclients]
  cases h with
  | quiet hsame hold hnew =>
    exact .keep (.none hsame.currClientId hsame.admissions (hids _ hsame.clients) (.plain hold)
      (.plain hnew))
  | accept =>
    apply Numbers.keep
    refine Keeps.none rfl rfl (hids _ rfl) (.plain plain_zero) (.one fun _ _ hst => ?_)
    cases hst
    rfl
  | @move c d o s' extra hsame hstage hextra =>
    apply Numbers.keep
    refine ⟨hsame.currClientId, hsame.admissions, hids _ hsame.clients, ?_, fun _ => ?_⟩
    · intro e he sid st hst _
      rcases Multiset.mem_cons.mp he with rfl | he
      · exact Or.inr (Or.inr ⟨c, Multiset.mem_singleton_self c, hstage ▸ hst⟩)
      · rw [hextra e he] at hst
        cases hst
    · rw [numbered_cons, hstage, (NoneEntering.plain hextra).numbered_eq_zero, taken_run,
        numbered_singleton, Nat.zero_add]
  | refuse =>
    apply Numbers.keep
    refine Keeps.none rfl rfl (hids _ rfl) (.one fun _ _ hst => ?_) (.plain (plain_singleton rfl))
    cases hst
    rfl
  | pass =>
    apply Numbers.keep
    refine ⟨rfl, rfl, hids _ rfl, fun c hc sid st hst _ => ?_, fun _ => by simp [Call.stage]⟩
    obtain rfl := Multiset.mem_singleton.mp hc
    cases hst
    exact Or.inl rfl
  | count =>
    apply Numbers.keep
    refine ⟨rfl, rfl, hids _ rfl, fun c hc sid st hst _ => ?_, fun _ => by simp [Call.stage]⟩
    obtain rfl := Multiset.mem_singleton.mp hc
    cases hst
    exact Or.inr (Or.inl rfl)
  | assign => exact .assign
  | join => exact .join
  | joinFailed hfull => exact .joinFailed hfull
  | @leave sid c o new hc hnew =>
    apply Numbers.keep
    refine Keeps.none rfl rfl (hids _ rfl) (.one fun _ _ hst => ?_) (.plain hnew)
    rcases hc _ hst with he | he <;> cases he <;> rfl
  | create hbegins =>
    apply Numbers.keep
    refine Keeps.none rfl rfl (fun sid hsid => ?_) (.plain (plain_singleton rfl)) (.begins hbegins)
    exact congrArg Client.clientId (if_neg hsid.ne)
  | restart hbegins => exact .restart rfl rfl (.cons rfl (.begins hbegins)) rfl
  | cancel hsame =>
    exact .keep (.none hsame.currClientId hsame.admissions (hids _ hsame.clients)
      (.plain (plain_singleton rfl)) (.cons rfl (.cancelAccepts s)))
  | @disconnect f s' new hsame hnew =>
    have hd := disconnect_spec f s.connectionList s
    apply Numbers.keep
    apply Keeps.none _ _ _ (.plain (plain_singleton rfl)) (.plain hnew)
    · rw [hsame.currClientId, hd.same]
    · rw [hsame.admissions, hd.same]
    · intro sid _
      rw [hsame.clients, hd.id]
  | crash =>
    apply Numbers.keep
    refine ⟨rfl, rfl, hids _ rfl, fun c hc => ?_, fun halive => ?_⟩
    · exact absurd hc (Multiset.notMem_zero c)
    · cases halive

theorem starts_of_effect {s s' : ServerTcp} {rest new : Multiset Call} {a : Action}
    (h : Effect s rest a s' new) : s.starts ≤ s'.starts := by
  cases h with
  | quiet hsame | move hsame | cancel hsame => exact hsame.starts.ge
  | @disconnect f s' new hsame =>
    rw [hsame.starts, (disconnect_spec f s.connectionList s).same]
  | restart => exact Nat.le_succ _
  | _ => exact Nat.le_refl _

/-- What the numbering rests on. -/
structure Orderly (s : State) : Prop where
  ledger : Ledger s
  chain : chains s ≤ 1
  count : ChainCount s
  room : Room s
  arrived : ∀ sid ∈ s.shared.admissions, Arrived s sid
  /-- nothing joins before the `start_accept` of `start` -/
  idle : s.shared.starts = 0 → s.shared.admissions = []

theorem Orderly.created {s : State} (h : Orderly s) {c : Call} (hc : c ∈ s.calls) {sid : Nat}
    {st : Stage} (hst : c.stage = some (sid, st)) : sid < s.shared.created := by
  have hsession : c.session = some sid := by rw [Call.session, hst]; rfl
  have hpos : 0 < visits s.calls sid := Multiset.countP_pos.mpr ⟨c, hc, hsession⟩
  have hplace := h.ledger.place sid
  rw [places] at hplace
  by_contra hge
  rw [if_neg hge] at hplace
  omega

theorem Orderly.rest_none {s : State} (h : Orderly s) {c : Call} {rest : Multiset Call}
    (hcalls : s.calls = {c} + rest) (hc : c.inChain = true) : NoneEntering rest := by
  intro d hd sid st hst
  by_contra hentering
  have hin := inChain_of_entering hst (eq_true_of_ne_false hentering)
  rw [rest_not_inChain h.chain hcalls hc d hd] at hin
  cases hin

theorem ofNat_succ (n : Nat) : UInt32.ofNat n + 1 = .ofNat (n + 1) :=
  (UInt32.ofNat_add n 1).symm

section NumberingStep

variable {s t : State} {new rest : Multiset Call}

/-- No session is on its way to `join` any more. -/
theorem numbering_reading (hreading : NoneEntering t.calls)
    (hids : ∀ k sid, t.shared.admissions[k]? = some sid →
      (t.shared.clients sid).clientId = .ofNat (k + 1))
    (hnext : t.shared.currClientId = .ofNat (t.shared.admissions.length + 1)) :
    Numbering t := by
  constructor
  · exact hids
  · exact fun c hc sid hst => absurd (hreading c hc sid _ hst) nofun
  · exact fun c hc sid id hst => absurd (hreading c hc sid _ hst) nofun
  · intro _
    rw [hreading.numbered_eq_zero]
    exact hnext

theorem numbering_keep {old : Multiset Call} (ho : Orderly s) (h : Numbering s)
    (halive : s.shared.terminated = false) (hcalls : s.calls = old + rest)
    (ht : t.calls = new + rest) (hkeeps : Keeps s.shared t.shared old new) : Numbering t := by
  -- a session between `can_join` and `join` was so before, or has just been counted
  have hbefore : ∀ c ∈ t.calls, ∀ sid st, c.stage = some (sid, st) → st.entering = true →
      st = .admitted ∨ st = .counted s.shared.currClientId ∨
        ∃ d ∈ s.calls, d.stage = some (sid, st) := by
    intro c hc sid st hst hentering
    rw [ht] at hc
    rcases Multiset.mem_add.mp hc with hc | hc
    · rcases hkeeps.calls c hc sid st hst hentering with he | he | ⟨d, hd, hst'⟩
      · exact Or.inl he
      · exact Or.inr (Or.inl he)
      · exact Or.inr (Or.inr ⟨d, hcalls ▸ Multiset.mem_add.mpr (Or.inl hd), hst'⟩)
    · exact Or.inr (Or.inr ⟨c, hcalls ▸ Multiset.mem_add.mpr (Or.inr hc), hst⟩)
  constructor
  · intro k sid hk
    rw [hkeeps.admissions] at hk
    rw [hkeeps.ids sid (ho.arrived sid (List.mem_of_getElem? hk)).created]
    exact h.ids k sid hk
  · intro c hc sid hst
    rcases hbefore c hc sid _ hst rfl with he | he | ⟨d, hd, hst'⟩
    · cases he
    · cases he
    · rw [hkeeps.admissions, hkeeps.ids sid (ho.created hd hst')]
      exact h.own d hd sid hst'
  · intro c hc sid id hst
    rw [hkeeps.counter]
    rcases hbefore c hc sid _ hst rfl with he | he | ⟨d, hd, hst'⟩
    · cases he
    · cases he
      rfl
    · exact h.counted d hd sid id hst'
  · intro htalive
    have hnext := h.next halive
    rw [hcalls, numbered_add] at hnext
    rw [hkeeps.counter, hkeeps.admissions, ht, numbered_add, hkeeps.count htalive]
    exact hnext

theorem numbering_assign {sid : Nat} {id : UInt32} (ho : Orderly s) (h : Numbering s)
    (halive : s.shared.terminated = false) (hcalls : s.calls = {.counted sid id} + rest)
    (ht : t.calls = {.starting sid} + rest) (hshared : t.shared = s.shared.assignId sid id) :
    Numbering t := by
  have hnone := ho.rest_none hcalls rfl
  have hmem : .counted sid id ∈ s.calls :=
    hcalls ▸ Multiset.mem_add.mpr (Or.inl (Multiset.mem_singleton_self _))
  have hid : id = .ofNat (s.shared.admissions.length + 1) := by
    rw [h.counted _ hmem sid id rfl, h.next halive, hcalls, numbered_add, hnone.numbered_eq_zero]
    rfl
  constructor
  · intro k i hk
    rw [hshared] at hk
    replace hk : s.shared.admissions[k]? = some i := hk
    have harrived := ho.arrived i (List.mem_of_getElem? hk)
    have hne : i ≠ sid := by
      rintro rfl
      exact absurd (harrived.stage _ hmem _ rfl) nofun
    have hsame : ((s.shared.assignId sid id).clients i) = s.shared.clients i := if_neg hne
    rw [hshared, hsame]
    exact h.ids k i hk
  · intro c hc i hst
    rw [ht] at hc
    rcases Multiset.mem_add.mp hc with hc | hc
    · obtain rfl := Multiset.mem_singleton.mp hc
      cases hst
      rw [hshared]
      show ((s.shared.assignId sid id).clients sid).clientId =
        .ofNat (s.shared.admissions.length + 1)
      rw [← hid]
      exact congrArg Client.clientId (if_pos rfl)
    · exact absurd (hnone c hc i _ hst) nofun
  · intro c hc i id' hst
    rw [ht] at hc
    rcases Multiset.mem_add.mp hc with hc | hc
    · obtain rfl := Multiset.mem_singleton.mp hc
      cases hst
    · exact absurd (hnone c hc i _ hst) nofun
  · intro _
    rw [hshared, ht, numbered_add, hnone.numbered_eq_zero]
    show id + 1 = .ofNat (s.shared.admissions.length + (1 + 0) + 1)
    rw [hid, ofNat_succ]

theorem numbering_join {sid : Nat} (ho : Orderly s) (h : Numbering s)
    (halive : s.shared.terminated = false) (hcalls : s.calls = {.joining sid} + rest)
    (ht : t.calls = {.joined sid} + rest) (hshared : t.shared = s.shared.insert sid) :
    Numbering t := by
  have hnone := ho.rest_none hcalls rfl
  have hmem : .joining sid ∈ s.calls :=
    hcalls ▸ Multiset.mem_add.mpr (Or.inl (Multiset.mem_singleton_self _))
  have hreading : NoneEntering t.calls := by
    intro c hc i st hst
    rw [ht] at hc
    rcases Multiset.mem_add.mp hc with hc | hc
    · obtain rfl := Multiset.mem_singleton.mp hc
      cases hst
      rfl
    · exact hnone c hc i st hst
  apply numbering_reading hreading
  · intro k i hk
    rw [hshared] at hk ⊢
    replace hk : (s.shared.admissions ++ [sid])[k]? = some i := hk
    show (s.shared.clients i).clientId = _
    rw [List.getElem?_append] at hk
    split at hk
    · exact h.ids k i hk
    · -- the new session has the place behind the others
      obtain ⟨hlen, rfl⟩ := List.getElem?_eq_some_iff.mp hk
      rw [List.length_singleton] at hlen
      have hk : k = s.shared.admissions.length := by omega
      rw [List.getElem_singleton, hk]
      exact h.own _ hmem sid rfl
  · rw [hshared]
    show s.shared.currClientId = .ofNat ((s.shared.admissions ++ [sid]).length + 1)
    rw [h.next halive, hcalls, numbered_add, hnone.numbered_eq_zero, List.length_append]
    rfl

/-- The first `start_accept`: no session has come. -/
theorem numbering_restart (ho : Orderly s) (hzero : s.shared.starts = 0)
    (hold : ∀ c ∈ rest, c ∈ s.calls) (ht : t.calls = new + rest)
    (hcounter : t.shared.currClientId = 1) (hadmissions : t.shared.admissions = s.shared.admissions)
    (hnew : NoneEntering new) : Numbering t := by
  have hhandlers : handlers s.calls = 0 := by
    have hle := ho.count.le
    rw [chains] at hle
    omega
  have hreading : NoneEntering t.calls := by
    intro c hc sid st hst
    rw [ht] at hc
    rcases Multiset.mem_add.mp hc with hc | hc
    · exact hnew c hc sid st hst
    · by_contra hentering
      have hin := inChain_of_entering hst (eq_true_of_ne_false hentering)
      exact absurd hin (Multiset.countP_eq_zero.mp hhandlers c (hold c hc))
  have hempty : t.shared.admissions = [] := by rw [hadmissions, ho.idle hzero]
  apply numbering_reading hreading
  · intro k sid hk
    rw [hempty] at hk
    cases hk
  · rw [hempty, hcounter]
    rfl

theorem numbering_step {a : Action} (ho : Orderly s) (h : Numbering s)
    (hstarts : t.shared.starts ≤ 1) (hs : step s a = some t) : Numbering t := by
  obtain ⟨halive, new, rest, hcalls, ht, heffect⟩ := effect_of_step hs
  generalize hshared : t.shared = s' at heffect
  cases numbers_of_effect heffect with
  | keep hkeeps => exact numbering_keep ho h halive hcalls ht (hshared ▸ hkeeps)
  | assign => exact numbering_assign ho h halive hcalls ht hshared
  | join => exact numbering_join ho h halive hcalls ht hshared
  | @joinFailed sid o hfull =>
    have hmem : .joining sid ∈ s.calls :=
      hcalls ▸ Multiset.mem_add.mpr (Or.inl (Multiset.mem_singleton_self _))
    exact absurd (ho.room _ hmem sid _ rfl rfl) (Nat.not_le.mpr hfull)
  | restart hcounter hadmissions hnew hsucc =>
    subst hshared
    have hold : ∀ c ∈ rest, c ∈ s.calls := fun c hc =>
      hcalls ▸ Multiset.mem_add.mpr (Or.inr hc)
    exact numbering_restart ho (by omega) hold ht hcounter hadmissions hnew

end NumberingStep

section Reachable

variable {maxConn ioThreadNum : UInt32} {s : State}

theorem orderly_of_reach (h : Reach step NoStop (start maxConn ioThreadNum) s) : Orderly s := by
  refine ⟨ledger_of_reach h, chains_le_one h, chainCount_of_reach (h.mono fun _ _ _ => trivial),
    ?_, arrived_of_reach h, ?_⟩
  · refine h.invariant (P := Room) (fun c hc => absurd hc (Multiset.notMem_zero c)) ?_
    exact fun u a t hu hroom _ hstep => room_step (chains_le_one hu) hroom hstep
  · refine h.invariant (P := fun t => t.shared.starts = 0 → t.shared.admissions = [])
      (fun _ => rfl) fun u a t hu hidle _ hstep hzero => ?_
    obtain ⟨-, new, rest, hcalls, -, heffect⟩ := effect_of_step hstep
    have hle := starts_of_effect heffect
    rcases admissions_of_effect heffect with hsame | ⟨sid, o, rfl, -, -⟩
    · rw [hsame]
      exact hidle (by omega)
    · -- the handler that joins belongs to a chain
      have hcount := (chainCount_of_reach (hu.mono fun _ _ _ => trivial)).le
      have hin : (Call.joining sid).inChain = true := rfl
      rw [chains, hcalls, handlers_add, taken_run, handlers_singleton, hin, if_pos rfl] at hcount
      omega

theorem firstRun_numbering (h : Reach step NoStop (start maxConn ioThreadNum) s) : Numbering s := by
  have hstart : Numbering (start maxConn ioThreadNum) := by
    constructor
    · exact fun k sid hk => nomatch hk
    · exact fun c hc => absurd hc (Multiset.notMem_zero c)
    · exact fun c hc => absurd hc (Multiset.notMem_zero c)
    · exact fun _ => rfl
  refine h.invariant hstart fun u a t hu hnumbering hok hstep => ?_
  apply numbering_step (orderly_of_reach hu) hnumbering _ hstep
  have hstarts := (once_of_reach (hu.tail hok hstep)).starts
  split at hstarts <;> omega

theorem not_asserted (h : Reach step NoStop (start maxConn ioThreadNum) s) :
    s.shared.asserted = false := by
  refine h.invariant (P := fun t => t.shared.asserted = false) rfl fun u a t hu hno _ hstep => ?_
  obtain ⟨-, new, rest, hcalls, -, heffect⟩ := effect_of_step hstep
  generalize t.shared = t' at heffect ⊢
  cases heffect with
  | quiet hsame | move hsame | cancel hsame => exact hsame.asserted.trans hno
  | @joinFailed sid o hfull =>
    have hmem : .joining sid ∈ u.calls :=
      hcalls ▸ Multiset.mem_add.mpr (Or.inl (Multiset.mem_singleton_self _))
    exact absurd ((orderly_of_reach hu).room _ hmem sid _ rfl rfl) (Nat.not_le.mpr hfull)
  | @disconnect f s' new hsame =>
    rw [hsame.asserted, (disconnect_spec f u.shared.connectionList u.shared).same]
    exact hno
  | _ => exact hno

end Reachable

/-- **The first run.** In every run without a `stop`: no session is turned away
once `can_join` has let it in, and the sessions that have joined have the ids
1, 2, 3 in the order in which they joined, the next one on its way the next id,
as long as there are fewer than 2^32 of them. -/
theorem first_run (maxConn ioThreadNum : UInt32) (s : State)
    (h : Reach step NoStop (start maxConn ioThreadNum) s) :
    (s.shared.asserted = false ∧ ∀ sid, .joining sid ∈ s.calls → (s.shared.join sid).2 = true) ∧
      (s.shared.admissions.length < UInt32.size →
        s.shared.admissions.map (fun sid => (s.shared.clients sid).clientId.toNat) =
          List.range' 1 s.shared.admissions.length) ∧
      (s.shared.admissions.length + 1 < UInt32.size →
        ∀ c ∈ s.calls, ∀ sid, c.stage = some (sid, .numbered) →
          (s.shared.clients sid).clientId.toNat = s.shared.admissions.length + 1) := by
  have horderly := orderly_of_reach h
  have hnumbering := firstRun_numbering h
  refine ⟨⟨not_asserted h, fun sid hmem => ?_⟩, fun hlt => ?_, fun hlt c hc sid hst => ?_⟩
  · have hroom := horderly.room _ hmem sid _ rfl rfl
    rw [ServerTcp.join, if_neg (Nat.not_lt.mpr hroom)]
  · apply List.ext_getElem
    · rw [List.length_map, List.length_range']
    · intro k hk _
      rw [List.length_map] at hk
      have hid := hnumbering.ids k _ (List.getElem?_eq_getElem hk)
      rw [List.getElem_map, hid, List.getElem_range', UInt32.toNat_ofNat_of_lt' (by omega)]
      omega
  · rw [hnumbering.own c hc sid hst, UInt32.toNat_ofNat_of_lt' hlt]

instance (s : State) (a : Action) : Decidable (NoStop s a) :=
  inferInstanceAs (Decidable (_ = _))

/-- The first session goes before the second one comes. -/
theorem first_run_two : ∃ s : State, s.shared.connectionList = [1] ∧
    s.shared.admissions.map (fun sid => (s.shared.clients sid).clientId.toNat) = [1, 2] := by
  have hrun : (exec (guarded step NoStop) (start 18 1) (listens ++ spawns ++ joins 0 1 ++
      [.run (.asyncRead 0 .header) .error, .run (.readDone 0 .header true) .go,
        .run (.handlerRead 0 .header true) .go] ++ joins 1 2)).map
      (fun s => (s.shared.connectionList, s.shared.admissions)) = some ([1], [0, 1]) := by
    decide +kernel
  obtain ⟨s, hs, hseen⟩ := Option.map_eq_some_iff.mp hrun
  simp only [Prod.mk.injEq] at hseen
  obtain ⟨hlist, hadmissions⟩ := hseen
  have hlen : s.shared.admissions.length = 2 := congrArg List.length hadmissions
  have hids := (first_run 18 1 s (Reach.of_exec_guarded _ hs)).2.1
  rw [hlen] at hids
  exact ⟨s, hlist, hids (by decide)⟩

end AsioTcp.Server
