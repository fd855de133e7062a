import AsioTcp.ReadActivity
import Mathlib.Data.Multiset.Filter
import Mathlib.Data.Multiset.UnionInter

/-!
# Client ids

`handler_accept` takes the id of a new session from `curr_client_id_`, which
`start` sets back to 1 and which wraps around. An id is in use from the moment
it is read from the counter until its session leaves the registry, or comes to
no join. `IdStep` says how a step changes the ids in use; only the read of the
counter adds one.
-/

namespace AsioTcp.Server

open Transition Interleaving

def Call.namedId (clients : Nat → Client) (c : Call) : Option UInt32 :=
  match c.stage with
  | some (sid, .numbered) => some (clients sid).clientId
  | _ => none

def Call.countedId (c : Call) : Option UInt32 :=
  match c.stage with
  | some (_, .counted id) => some id
  | _ => none

def registeredIds (s : ServerTcp) : Multiset UInt32 :=
  ↑(s.connectionList.map fun sid => (s.clients sid).clientId)

/-- The ids of the sessions that are registered or about to join. -/
def namedIds (s : ServerTcp) (calls : Multiset Call) : Multiset UInt32 :=
  registeredIds s + calls.filterMap (Call.namedId s.clients)

/-- The values of the counter that have been read but not written back. -/
def countedIds (calls : Multiset Call) : Multiset UInt32 := calls.filterMap Call.countedId

def idsInUse (s : State) : Multiset UInt32 := namedIds s.shared s.calls + countedIds s.calls

theorem namedId_plain {calls : Multiset Call} (h : Plain calls) (clients : Nat → Client) :
    calls.filterMap (Call.namedId clients) = 0 := by
  refine Multiset.eq_zero_of_forall_notMem fun id hid => ?_
  obtain ⟨c, hc, hheld⟩ := (Multiset.mem_filterMap _ _).mp hid
  rw [Call.namedId, h c hc] at hheld
  cases hheld

theorem countedId_plain {calls : Multiset Call} (h : Plain calls) : countedIds calls = 0 := by
  refine Multiset.eq_zero_of_forall_notMem fun id hid => ?_
  obtain ⟨c, hc, hheld⟩ := (Multiset.mem_filterMap _ _).mp hid
  rw [Call.countedId, h c hc] at hheld
  cases hheld

theorem countedIds_add (calls calls' : Multiset Call) :
    countedIds (calls + calls') = countedIds calls + countedIds calls' :=
  Multiset.filterMap_add _ _ _

/-- The ids of registered sessions, and of those that are about to join, stay. -/
theorem clientId_of_effect {s s' : ServerTcp} {a : Action} {new rest : Multiset Call}
    (h : Effect s rest a s' new) (sid : Nat) : (s'.clients sid).clientId = (s.clients sid).clientId ∨
      (∃ id o, a = .run (.counted sid id) o) ∨ sid = s.created := by
  cases h with
  | quiet hsame | move hsame => exact Or.inl (by rw [hsame.clients])
  | cancel hsame => exact Or.inl (by rw [hsame.clients]; rfl)
  | @assign named id o =>
    by_cases he : sid = named
    · subst he
      exact Or.inr (Or.inl ⟨id, o, rfl⟩)
    · exact Or.inl (congrArg Client.clientId (if_neg he))
  | create | restart =>
    by_cases he : sid = s.created
    · exact Or.inr (Or.inr he)
    · exact Or.inl (congrArg Client.clientId (if_neg he))
  | @disconnect f s' new hsame =>
    left
    rw [hsame.clients]
    exact (disconnect_spec f s.connectionList s).id sid
  | _ => exact Or.inl rfl

/-- The session is registered, or a call that does not run has it. -/
def Waits (s : ServerTcp) (rest : Multiset Call) (sid : Nat) : Prop :=
  sid ∈ s.connectionList ∨ 0 < visits rest sid

theorem clientId_waits {s : State} {s' : ServerTcp} {a : Action} {new rest : Multiset Call}
    (h : Ledger s) (halive : s.shared.terminated = false) (hcalls : s.calls = taken a + rest)
    (heffect : Effect s.shared rest a s' new) {sid : Nat} (hwaits : Waits s.shared rest sid) :
    (s'.clients sid).clientId = (s.shared.clients sid).clientId := by
  have hplace := h.place sid
  have hle := reads_le_visits rest sid
  have hread : sid ∈ s.shared.connectionList → reads (taken a) sid + reads rest sid = 1 := by
    intro hmem
    rw [← reads_add, ← hcalls]
    exact h.read halive sid hmem
  have htaken := reads_le_visits (taken a) sid
  rw [places, hcalls, visits_add] at hplace
  rcases clientId_of_effect heffect sid with hsame | ⟨id, o, rfl⟩ | hnew
  · exact hsame
  · -- the call that runs has the session to itself
    have hvisit : visits (taken (.run (.counted sid id) o)) sid = 1 := by
      simp [Call.session, Call.stage]
    have hnone : reads (taken (.run (.counted sid id) o)) sid = 0 := by
      simp [Call.stage]
    rcases hwaits with hmem | hpos
    · have hone := hread hmem
      split_ifs at hplace <;> omega
    · split_ifs at hplace <;> omega
  · rw [if_neg (by omega)] at hplace
    rcases hwaits with hmem | hpos
    · have hone := hread hmem
      omega
    · omega

/-- The ids that are in use in the calls that do not run stay. -/
theorem namedIds_rest {s : State} {s' : ServerTcp} {a : Action} {new rest : Multiset Call}
    (h : Ledger s) (halive : s.shared.terminated = false) (hcalls : s.calls = taken a + rest)
    (heffect : Effect s.shared rest a s' new) :
    rest.filterMap (Call.namedId s'.clients) = rest.filterMap (Call.namedId s.shared.clients) := by
  have hsame : ∀ c ∈ rest, Call.namedId s'.clients c = Call.namedId s.shared.clients c := by
    intro c hc
    unfold Call.namedId
    split
    · rename_i sid hstage
      have hvisit : 0 < visits rest sid := by
        refine Multiset.countP_pos.mpr ⟨c, hc, ?_⟩
        rw [Call.session, hstage]
        rfl
      rw [clientId_waits h halive hcalls heffect (Or.inr hvisit)]
    · rfl
  clear hcalls heffect
  induction rest using Multiset.induction_on with
  | empty => rfl
  | cons c rest ih =>
    rw [Multiset.filterMap_cons, Multiset.filterMap_cons, hsame c (Multiset.mem_cons_self c rest),
      ih fun d hd => hsame d (Multiset.mem_cons_of_mem hd)]

theorem registeredIds_eq {s : State} {s' : ServerTcp} {a : Action} {new rest : Multiset Call}
    (h : Ledger s) (halive : s.shared.terminated = false) (hcalls : s.calls = taken a + rest)
    (heffect : Effect s.shared rest a s' new) :
    (s.shared.connectionList.map fun sid => (s'.clients sid).clientId) =
      s.shared.connectionList.map fun sid => (s.shared.clients sid).clientId :=
  List.map_congr_left fun _ hsid => clientId_waits h halive hcalls heffect (Or.inl hsid)

/-- How the named and the counted ids change. -/
inductive IdStep (s : State) : Action → State → Prop
  | keep {a : Action} {t : State} : t.shared.currClientId = s.shared.currClientId →
      namedIds t.shared t.calls ≤ namedIds s.shared s.calls →
      countedIds t.calls ≤ countedIds s.calls → IdStep s a t
  | count {sid : Nat} {o : Outcome} {t : State} :
      t.shared.currClientId = s.shared.currClientId →
      namedIds t.shared t.calls = namedIds s.shared s.calls →
      countedIds t.calls = s.shared.currClientId ::ₘ countedIds s.calls →
      IdStep s (.run (.admitted sid) o) t
  | assign {sid : Nat} {id : UInt32} {o : Outcome} {t : State} :
      t.shared.currClientId = id + 1 →
      namedIds t.shared t.calls = id ::ₘ namedIds s.shared s.calls →
      countedIds s.calls = id ::ₘ countedIds t.calls → IdStep s (.run (.counted sid id) o) t
  | restart {o : Outcome} {t : State} : t.shared.currClientId = 1 →
      namedIds t.shared t.calls = namedIds s.shared s.calls →
      countedIds t.calls = countedIds s.calls → IdStep s (.run (.start .startAccept) o) t

/-- What the calls that do not run have in use is the same before and after. -/
theorem namedIds_eq {s t : State} {a : Action} {new rest : Multiset Call}
    (hcalls : s.calls = taken a + rest) (ht : t.calls = new + rest)
    (hrest : rest.filterMap (Call.namedId t.shared.clients) =
      rest.filterMap (Call.namedId s.shared.clients)) :
    namedIds s.shared s.calls = namedIds s.shared (taken a) +
        rest.filterMap (Call.namedId s.shared.clients) ∧
      namedIds t.shared t.calls = namedIds t.shared new +
        rest.filterMap (Call.namedId s.shared.clients) := by
  constructor
  · rw [namedIds, namedIds, hcalls, Multiset.filterMap_add, Multiset.add_assoc]
  · rw [namedIds, namedIds, ht, Multiset.filterMap_add, hrest, Multiset.add_assoc]

/-- The ids of what is registered, and of the call that runs, become fewer. -/
theorem idStep_keep {s t : State} {a : Action} {new rest : Multiset Call}
    (hcalls : s.calls = taken a + rest) (ht : t.calls = new + rest)
    (hcurr : t.shared.currClientId = s.shared.currClientId)
    (hrest : rest.filterMap (Call.namedId t.shared.clients) =
      rest.filterMap (Call.namedId s.shared.clients))
    (hregistered : registeredIds t.shared ≤ registeredIds s.shared)
    (hnamed : new.filterMap (Call.namedId t.shared.clients) ≤
      (taken a).filterMap (Call.namedId s.shared.clients))
    (hcounted : countedIds new ≤ countedIds (taken a)) : IdStep s a t := by
  apply IdStep.keep hcurr
  · rw [namedIds, namedIds, ht, hcalls, Multiset.filterMap_add, Multiset.filterMap_add, hrest]
    exact (Multiset.add_le_add_right hregistered).trans
      (Multiset.add_le_add_left (Multiset.add_le_add_right hnamed))
  · rw [ht, hcalls, countedIds_add, countedIds_add]
    exact Multiset.add_le_add_right hcounted

/-- None of the new calls has an id in use. -/
theorem idStep_none {s t : State} {a : Action} {new rest : Multiset Call}
    (hcalls : s.calls = taken a + rest) (ht : t.calls = new + rest)
    (hcurr : t.shared.currClientId = s.shared.currClientId)
    (hrest : rest.filterMap (Call.namedId t.shared.clients) =
      rest.filterMap (Call.namedId s.shared.clients))
    (hregistered : registeredIds t.shared ≤ registeredIds s.shared)
    (hnamed : new.filterMap (Call.namedId t.shared.clients) = 0)
    (hcounted : countedIds new = 0) : IdStep s a t := by
  apply idStep_keep hcalls ht hcurr hrest hregistered
  · rw [hnamed]
    exact Multiset.zero_le _
  · rw [hcounted]
    exact Multiset.zero_le _

theorem namedId_cancelAccepts (s : ServerTcp) (clients : Nat → Client) :
    s.cancelAccepts.2.filterMap (Call.namedId clients) = 0 ∧ countedIds s.cancelAccepts.2 = 0 := by
  constructor <;> refine Multiset.eq_zero_of_forall_notMem fun id hid => ?_ <;>
    obtain ⟨c, hc, hheld⟩ := (Multiset.mem_filterMap _ _).mp hid <;>
    obtain ⟨i, -, rfl⟩ := List.mem_map.mp (Multiset.mem_coe.mp hc) <;> cases hheld

theorem namedId_begins {s : ServerTcp} {accepting : List Nat} {new : Multiset Call}
    (h : Begins s accepting new) (clients : Nat → Client) :
    new.filterMap (Call.namedId clients) = 0 ∧ countedIds new = 0 := by
  cases h with
  | pending => exact ⟨rfl, rfl⟩
  | closed => exact ⟨rfl, rfl⟩

theorem id_step {s t : State} {a : Action} (h : Ledger s) (hs : step s a = some t) :
    IdStep s a t := by
  obtain ⟨halive, new, rest, hcalls, ht, heffect⟩ := effect_of_step hs
  have hrest := namedIds_rest h halive hcalls heffect
  have hregistered := registeredIds_eq h halive hcalls heffect
  have hmine := (namedIds_eq hcalls ht hrest).1
  have hours := (namedIds_eq hcalls ht hrest).2
  -- what is registered is the same list, or less of it
  have hsame : t.shared.connectionList = s.shared.connectionList →
      registeredIds t.shared = registeredIds s.shared := by
    intro hlist
    rw [registeredIds, registeredIds, hlist, hregistered]
  have hless : t.shared.connectionList.Sublist s.shared.connectionList →
      registeredIds t.shared ≤ registeredIds s.shared := by
    intro hsub
    rw [registeredIds, registeredIds, ← hregistered]
    exact Multiset.coe_le.mpr (hsub.map _).subperm
  obtain ⟨t', calls⟩ := t
  simp only at ht hrest hregistered hsame hless heffect hours
  cases heffect with
  | quiet hq hold hnew =>
    exact idStep_none hcalls ht hq.currClientId hrest (hsame hq.connectionList).le
      (namedId_plain hnew _) (countedId_plain hnew)
  | @move c d o s' extra hq hstage hextra =>
    refine idStep_keep hcalls ht hq.currClientId hrest (hsame hq.connectionList).le ?_ ?_
    · rw [Multiset.filterMap_cons, namedId_plain hextra, taken_run, ← Multiset.cons_zero,
        Multiset.filterMap_cons, Call.namedId, Call.namedId, hstage, hq.clients]
      exact le_refl _
    · rw [countedIds, Multiset.filterMap_cons, ← countedIds, countedId_plain hextra, taken_run,
        countedIds, ← Multiset.cons_zero, Multiset.filterMap_cons, Call.countedId, Call.countedId,
        hstage]
      exact le_refl _
  | accept | refuse | pass | joinFailed | crash =>
    exact idStep_keep hcalls ht rfl hrest (hsame rfl).le (Multiset.zero_le _) (Multiset.zero_le _)
  | count =>
    refine IdStep.count rfl ?_ ?_
    · rw [hmine, hours]
      rfl
    · rw [ht, hcalls, countedIds_add, countedIds_add]
      show {s.shared.currClientId} + countedIds rest =
        s.shared.currClientId ::ₘ (0 + countedIds rest)
      rw [Multiset.zero_add, Multiset.singleton_add]
  | @assign sid id o =>
    refine IdStep.assign rfl ?_ ?_
    · rw [hmine, hours, namedIds, namedIds, hsame rfl]
      have hid : ((s.shared.assignId sid id).clients sid).clientId = id :=
        congrArg Client.clientId (if_pos rfl)
      have hnew : ({.starting sid} : Multiset Call).filterMap
          (Call.namedId (s.shared.assignId sid id).clients) =
          {((s.shared.assignId sid id).clients sid).clientId} := rfl
      have hold : (taken (.run (.counted sid id) o)).filterMap
          (Call.namedId s.shared.clients) = 0 := rfl
      rw [hnew, hid, hold, Multiset.add_zero, Multiset.add_comm _ {id}, Multiset.singleton_add,
        Multiset.cons_add]
    · rw [ht, hcalls, countedIds_add, countedIds_add]
      show {id} + countedIds rest = id ::ₘ (0 + countedIds rest)
      rw [Multiset.zero_add, Multiset.singleton_add]
  | @join sid o =>
    refine IdStep.keep rfl ?_ ?_
    · rw [hmine, hours]
      apply Multiset.add_le_add_right
      show registeredIds (s.shared.insert sid) + 0 ≤
        registeredIds s.shared + {(s.shared.clients sid).clientId}
      rw [Multiset.add_zero]
      by_cases hmem : sid ∈ s.shared.connectionList
      · rw [registeredIds, ServerTcp.insert, List.insert_of_mem hmem]
        exact Multiset.le_add_right _ _
      · rw [registeredIds, ServerTcp.insert, List.insert_of_not_mem hmem, List.map_cons,
          Multiset.add_comm, Multiset.singleton_add, ← Multiset.cons_coe]
        exact le_refl _
    · rw [ht, hcalls, countedIds_add, countedIds_add]
      exact le_refl _
  | leave _ hnew =>
    exact idStep_none hcalls ht rfl hrest (hless List.erase_sublist) (namedId_plain hnew _)
      (countedId_plain hnew)
  | @create o accepting new hbegins =>
    exact idStep_none hcalls ht rfl hrest (hsame rfl).le (namedId_begins hbegins _).1
      (namedId_begins hbegins s.shared.clients).2
  | @restart o accepting new hbegins =>
    refine IdStep.restart rfl ?_ ?_
    · rw [hmine, hours, namedIds, namedIds, hsame rfl, Multiset.filterMap_cons,
        (namedId_begins hbegins _).1]
      rfl
    · rw [ht, hcalls, countedIds_add, countedIds_add, countedIds, Multiset.filterMap_cons,
        ← countedIds, (namedId_begins hbegins s.shared.clients).2]
      rfl
  | cancel hq =>
    apply idStep_none hcalls ht hq.currClientId hrest (hsame hq.connectionList).le
    · rw [Multiset.filterMap_cons, (namedId_cancelAccepts s.shared _).1]
      rfl
    · rw [countedIds, Multiset.filterMap_cons, ← countedIds,
        (namedId_cancelAccepts s.shared s.shared.clients).2]
      rfl
  | @disconnect f s' new hq hnew =>
    have hd := disconnect_spec f s.shared.connectionList s.shared
    have hcurr : t'.currClientId = s.shared.currClientId := by rw [hq.currClientId, hd.same]
    have hsub : t'.connectionList.Sublist s.shared.connectionList := by
      rw [hq.connectionList, hd.list]
      split
      · exact List.Sublist.refl _
      · exact List.nil_sublist _
    exact idStep_none (t := ⟨t', calls⟩) hcalls ht hcurr hrest (hless hsub) (namedId_plain hnew _)
      (countedId_plain hnew)

/-! ## Runs -/

/-- The step reads `curr_client_id_`. -/
def reading : Action → Bool
  | .run (.admitted _) _ => true
  | _ => false

/-- The step is `curr_client_id_ = 1`. -/
def resetting : Action → Bool
  | .run (.start .startAccept) _ => true
  | _ => false

/-- A value that `handler_accept` reads from the counter is neither 0 nor in
use. -/
def FreshId (s : State) (a : Action) : Prop :=
  reading a = true → s.shared.currClientId ≠ 0 ∧ s.shared.currClientId ∉ idsInUse s

/-- The counter is set back only when no id is in use, and read only when it
has not wrapped around and no other handler is about to write it. -/
def OneNumbering (s : State) (a : Action) : Prop :=
  (resetting a = true → idsInUse s = 0) ∧
    (reading a = true → s.shared.currClientId ≠ 0 ∧ countedIds s.calls = 0)

/-- The registered sessions have different ids, none is 0, and `find` finds
exactly them. -/
structure Identified (s : ServerTcp) : Prop where
  different : ∀ i ∈ s.connectionList, ∀ j ∈ s.connectionList,
    (s.clients i).clientId = (s.clients j).clientId → i = j
  nonzero : ∀ i ∈ s.connectionList, (s.clients i).clientId ≠ 0
  find : ∀ id sid, s.find id = some sid ↔
    sid ∈ s.connectionList ∧ (s.clients sid).clientId = id

theorem identified_of_nodup {s : ServerTcp} (hnodup : (registeredIds s).Nodup)
    (hzero : 0 ∉ registeredIds s) : Identified s := by
  have hinj : ∀ i ∈ s.connectionList, ∀ j ∈ s.connectionList,
      (s.clients i).clientId = (s.clients j).clientId → i = j :=
    List.inj_on_of_nodup_map (Multiset.coe_nodup.mp hnodup)
  have hnonzero : ∀ i ∈ s.connectionList, (s.clients i).clientId ≠ 0 := by
    intro i hi he
    exact hzero (Multiset.mem_coe.mpr (List.mem_map.mpr ⟨i, hi, he⟩))
  refine ⟨hinj, hnonzero, fun id sid => ⟨fun hfind => ?_, fun ⟨hmem, hid⟩ => ?_⟩⟩
  · unfold ServerTcp.find at hfind
    split at hfind
    · cases hfind
    · have hid := List.find?_some hfind
      exact ⟨List.mem_of_find?_eq_some hfind, beq_iff_eq.mp hid⟩
  · have hne : id ≠ 0 := hid ▸ hnonzero sid hmem
    rw [ServerTcp.find, if_neg hne]
    have hsome : (s.connectionList.find? fun i => (s.clients i).clientId == id).isSome :=
      List.find?_isSome.mpr ⟨sid, hmem, beq_iff_eq.mpr hid⟩
    obtain ⟨i, hi⟩ := Option.isSome_iff_exists.mp hsome
    have hfound := List.find?_some hi
    rw [hi, hinj i (List.mem_of_find?_eq_some hi) sid hmem
      ((beq_iff_eq.mp hfound).trans hid.symm)]

/-- The ids in use are different, and none is 0. -/
structure Proper (s : State) : Prop where
  nodup : (idsInUse s).Nodup
  nonzero : 0 ∉ idsInUse s

theorem Proper.mono {s t : State} (h : Proper s) (hle : idsInUse t ≤ idsInUse s) : Proper t :=
  ⟨Multiset.nodup_of_le hle h.nodup, fun hmem => h.nonzero (Multiset.mem_of_le hle hmem)⟩

theorem Proper.identified {s : State} (h : Proper s) : Identified s.shared := by
  have hle : registeredIds s.shared ≤ idsInUse s :=
    (Multiset.le_add_right _ _).trans (Multiset.le_add_right _ _)
  exact identified_of_nodup (Multiset.nodup_of_le hle h.nodup)
    fun hmem => h.nonzero (Multiset.mem_of_le hle hmem)

theorem proper_step {s t : State} {a : Action} (h : Proper s) (hok : FreshId s a)
    (hs : IdStep s a t) : Proper t := by
  cases hs with
  | keep _ hnamed hcounted =>
    exact h.mono ((Multiset.add_le_add_right hnamed).trans (Multiset.add_le_add_left hcounted))
  | count _ hnamed hcounted =>
    obtain ⟨hzero, hfresh⟩ := hok rfl
    have hadd : idsInUse t = s.shared.currClientId ::ₘ idsInUse s := by
      rw [idsInUse, hnamed, hcounted, Multiset.add_cons, ← idsInUse]
    constructor
    · rw [hadd]
      exact Multiset.nodup_cons.mpr ⟨hfresh, h.nodup⟩
    · rw [hadd]
      exact fun hmem => (Multiset.mem_cons.mp hmem).elim (fun he => hzero he.symm) h.nonzero
  | assign _ hnamed hcounted =>
    apply h.mono
    rw [idsInUse, idsInUse, hnamed, hcounted, Multiset.cons_add, Multiset.add_cons]
  | restart _ hnamed hcounted =>
    apply h.mono
    rw [idsInUse, idsInUse, hnamed, hcounted]

theorem proper_of_reach {maxConn ioThreadNum : UInt32} {s : State}
    (h : Reach step FreshId (start maxConn ioThreadNum) s) : Proper s := by
  refine h.invariant ⟨Multiset.nodup_zero, Multiset.notMem_zero 0⟩ fun u a t hu hp hok hstep => ?_
  exact proper_step hp hok (id_step (ledger_of_reach hu) hstep)

/-- The named ids are below the counter, which stands for 2^32 when it has
wrapped around; what has been read from it is its value. -/
structure Below (s : State) : Prop where
  named : ∀ id ∈ namedIds s.shared s.calls,
    s.shared.currClientId ≠ 0 → id < s.shared.currClientId
  counted : ∀ id ∈ countedIds s.calls, id = s.shared.currClientId ∧ id ≠ 0

theorem below_step {s t : State} {a : Action} (h : Below s) (hp : Proper s)
    (hok : OneNumbering s a) (hs : IdStep s a t) : Below t := by
  cases hs with
  | keep hcurr hnamed hcounted =>
    constructor
    · rw [hcurr]
      exact fun id hid => h.named id (Multiset.mem_of_le hnamed hid)
    · rw [hcurr]
      exact fun id hid => h.counted id (Multiset.mem_of_le hcounted hid)
  | count hcurr hnamed hcounted =>
    obtain ⟨hzero, hnone⟩ := hok.2 rfl
    constructor
    · rw [hcurr, hnamed]
      exact h.named
    · rw [hcurr, hcounted, hnone]
      intro id hid
      rcases Multiset.mem_cons.mp hid with rfl | hid
      · exact ⟨rfl, hzero⟩
      · exact absurd hid (Multiset.notMem_zero id)
  | @assign sid id o t hcurr hnamed hcounted =>
    have hmine : id ∈ countedIds s.calls := hcounted ▸ Multiset.mem_cons_self _ _
    obtain ⟨hid, hne⟩ := h.counted id hmine
    constructor
    · rw [hcurr, hnamed]
      intro i hi hwrap
      have hsucc : (id + 1).toNat = id.toNat + 1 := by
        have hlt := id.toNat_lt
        rw [UInt32.toNat_add]
        by_contra hover
        apply hwrap
        apply UInt32.toNat_inj.mp
        rw [UInt32.toNat_add]
        simp only [UInt32.reduceToNat] at hover ⊢
        omega
      rw [UInt32.lt_iff_toNat_lt, hsucc]
      rcases Multiset.mem_cons.mp hi with rfl | hi
      · omega
      · have hlt := UInt32.lt_iff_toNat_lt.mp (h.named i hi (hid ▸ hne))
        rw [← hid] at hlt
        omega
    · -- two handlers would have read the same value
      intro i hi
      exfalso
      have hi' : i ∈ countedIds s.calls := hcounted ▸ Multiset.mem_cons_of_mem hi
      have hsame : i = id := (h.counted i hi').1.trans hid.symm
      have hnodup := Multiset.nodup_of_le (Multiset.le_add_left _ _) hp.nodup
      rw [hcounted] at hnodup
      exact (Multiset.nodup_cons.mp hnodup).1 (hsame ▸ hi)
  | restart hcurr hnamed hcounted =>
    have hnone := hok.1 rfl
    have hempty : ∀ id, id ∉ namedIds s.shared s.calls ∧ id ∉ countedIds s.calls := by
      intro id
      have hid : id ∉ idsInUse s := hnone ▸ Multiset.notMem_zero id
      exact not_or.mp fun hor => hid (Multiset.mem_add.mpr hor)
    constructor
    · rw [hnamed]
      exact fun id hid => absurd hid (hempty id).1
    · rw [hcounted]
      exact fun id hid => absurd hid (hempty id).2

/-- In a run with one numbering every value read from the counter is fresh. -/
theorem fresh_of_numbering {s : State} {a : Action} (h : Below s) (hok : OneNumbering s a) :
    FreshId s a := by
  intro hreading
  obtain ⟨hzero, hnone⟩ := hok.2 hreading
  refine ⟨hzero, fun hmem => ?_⟩
  rw [idsInUse, hnone, Multiset.add_zero] at hmem
  have hlt := h.named _ hmem hzero
  exact absurd hlt (UInt32.lt_irrefl _)

theorem numbering_of_reach {maxConn ioThreadNum : UInt32} {s : State}
    (h : Reach step OneNumbering (start maxConn ioThreadNum) s) :
    Below s ∧ Reach step FreshId (start maxConn ioThreadNum) s := by
  induction h with
  | refl =>
    refine ⟨⟨fun id hid => ?_, fun id hid => ?_⟩, .refl⟩
    · exact absurd hid (Multiset.notMem_zero id)
    · exact absurd hid (Multiset.notMem_zero id)
  | tail _ hok hstep ih =>
    obtain ⟨hbelow, hreach⟩ := ih
    have hid := id_step (ledger_of_reach hreach) hstep
    exact ⟨below_step hbelow (proper_of_reach hreach) hok hid,
      hreach.tail (fresh_of_numbering hbelow hok) hstep⟩

/-- **Different ids.** In a run in which every value that `handler_accept`
reads from the counter is fresh, the registered sessions have different ids,
none of them 0. All runs with one numbering at a time are such runs: the
counter is set back only when no id is in use, and read only before it has
wrapped around and by one handler at a time. -/
theorem ids_identify (maxConn ioThreadNum : UInt32) (s : State) :
    (Reach step FreshId (start maxConn ioThreadNum) s → Identified s.shared) ∧
      (Reach step OneNumbering (start maxConn ioThreadNum) s →
        Reach step FreshId (start maxConn ioThreadNum) s) :=
  ⟨fun h => (proper_of_reach h).identified, fun h => (numbering_of_reach h).2⟩

instance (s : State) (a : Action) : Decidable (OneNumbering s a) :=
  inferInstanceAs (Decidable ((_ → _) ∧ (_ → _)))

/-- Two sessions with the ids 1 and 2. -/
theorem ids_identify_two : ∃ s : State, s.shared.connectionList = [1, 0] ∧
    Identified s.shared := by
  have hrun : (exec (guarded step OneNumbering) (start 18 1)
      (listens ++ spawns ++ joins 0 1 ++ joins 1 2)).map (fun s => s.shared.connectionList) =
        some [1, 0] := by
    decide +kernel
  obtain ⟨s, hs, hlist⟩ := Option.map_eq_some_iff.mp hrun
  have hids := ids_identify 18 1 s
  exact ⟨s, hlist, hids.1 (hids.2 (Reach.of_exec_guarded _ hs))⟩

/-- `handler_accept` of session 0 is about to join when `stop` clears the
registry, and joins before its thread ends. -/
def joinsLate : List Action :=
  listens ++ spawns ++ (joins 0 1).take 6 ++ stops.take 4 ++ (joins 0 1).drop 6 ++ stops.drop 4

/-- **One id twice.** A session of the first run is still registered when the
first session of the second run gets the id 1. -/
theorem same_id : ∃ s : State, Reach step always (start 18 1) s ∧ ¬ Identified s.shared := by
  have hrun : (exec step (start 18 1)
      (joinsLate ++ listens ++ spawns ++ joins 2 1)).map (fun s =>
      (s.shared.connectionList, (s.shared.clients 0).clientId, (s.shared.clients 2).clientId)) =
        some ([2, 0], 1, 1) := by
    decide +kernel
  obtain ⟨s, hs, hseen⟩ := Option.map_eq_some_iff.mp hrun
  simp only [Prod.mk.injEq] at hseen
  obtain ⟨hlist, hold, hnew⟩ := hseen
  refine ⟨s, Reach.of_exec _ hs, fun hids => ?_⟩
  have hmem : 0 ∈ s.shared.connectionList ∧ 2 ∈ s.shared.connectionList := by
    rw [hlist]
    decide
  exact absurd (hids.different 0 hmem.1 2 hmem.2 (hold.trans hnew.symm)) (by decide)

end AsioTcp.Server
