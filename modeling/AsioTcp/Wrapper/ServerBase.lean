import Mathlib.Data.List.Basic
import AsioTcp.Wrapper.ObjectPool

/-!
# `st_server_base`

A number of calls of `async_accept` is under way at a time, each with an object
of the pool that becomes a client. Any number of threads runs the handlers, and
others use the pool meanwhile. All this is a run of the pool in which no object
is added that has been there before, so that what holds of each such run holds
of the pool of a server (`server_pool`).
-/

namespace AsioTcp.Wrapper

open Transition

/-- The pool, whether the acceptor is open, how often `init` has yet to call
`start_next_accept`, and the clients: those that are waited for, those whose
handler has been queued without or with an error, and those whose handler runs,
before `start_next_accept` and after it. -/
structure ServerBase where
  pool : ObjectPool
  isListening : Bool
  starting : Nat
  accepts : List Object
  accepted : List Object
  aborted : List Object
  handling : List Object
  returning : List Object
  deriving DecidableEq

namespace ServerBase

variable (cfg : PoolConfig) (asyncAcceptNum : Nat)

/-- Clients that only `async_accept` and its handler know -/
def waiting (s : ServerBase) : List Object := s.accepts ++ (s.accepted ++ s.aborted)

/-- The `client_ptr` of each handler -/
def clients (s : ServerBase) : List Object := s.waiting ++ (s.handling ++ s.returning)

/-- What others may do: `add_object` is protected, and what a handler holds is
not theirs to copy or to let go. A call of `closed_object_pop` is not overlapped
by others that read `temp_object_can`. -/
def theirs (s : ServerBase) : ObjectPool.Action → Bool
  | .addObject _ => false
  | .createObject _ => s.pool.created < 2 ^ 64
  | .closedObjectFind _ => s.pool.unlocked
  | .closedObjectPop _ => s.pool.unlocked
  | .closedObjectAt _ => s.pool.unlocked
  | .copy i => s.pool.held[i]?.all fun o => o ∉ s.waiting
  | .release i => s.pool.held[i]?.all fun o => s.clients.count o < s.pool.held.count o
  | _ => true

/-- `create_object` has its lock, and `cur_id` has not come round: a run ends there. -/
def canCreate (s : ServerBase) : Bool :=
  (!cfg.reuseObject || s.pool.unlocked) && s.pool.created < 2 ^ 64

/-- `start_next_accept`; where the acceptor is closed `async_accept` fails. -/
def startNextAccept (s : ServerBase) (obsoleted : Object → Bool) : ServerBase :=
  let (client, pool) := s.pool.createObject cfg obsoleted
  if s.isListening then { s with pool, accepts := s.accepts ++ [client] }
  else { s with pool, aborted := s.aborted ++ [client] }

/-- `stop_listen` -/
def stopListen (s : ServerBase) : ServerBase :=
  { s with isListening := false, accepts := [], aborted := s.aborted ++ s.accepts }

/-- `accept_handler` up to `start_next_accept` -/
def acceptHandler (s : ServerBase) (i : Nat) (client : Object) (onAccept : Bool) : ServerBase :=
  { s with
    accepted := s.accepted.eraseIdx i
    handling := s.handling ++ [client]
    pool := if onAccept then (s.pool.addObject cfg client).2 else s.pool }

/-- `accept_handler` after an error -/
def acceptError (s : ServerBase) (i : Nat) (client : Object) : ServerBase :=
  stopListen { s with
    aborted := s.aborted.eraseIdx i, returning := s.returning ++ [client] }

/-- What `on_accept` returns is left open, as is whom it hands the client to. -/
inductive Action
  | pool (a : ObjectPool.Action)
  /-- `init` up to the loop; with the acceptor open an assertion fails -/
  | init
  /-- one round of the loop -/
  | initAccept (obsoleted : Object → Bool)
  /-- also by `uninit` -/
  | stopListen
  /-- a client connects, or an accept fails -/
  | accept (i : Nat)
  | acceptFails (i : Nat)
  | acceptHandler (i : Nat) (onAccept : Bool)
  | acceptError (i : Nat)
  /-- the rest of `accept_handler` -/
  | nextAccept (i : Nat) (obsoleted : Object → Bool)
  | handlerReturns (i : Nat)

def step (s : ServerBase) : Action → Option ServerBase
  | .pool a =>
    if s.theirs a then (s.pool.step cfg a).map fun pool => { s with pool } else none
  | .init =>
    if s.isListening || s.starting ≠ 0 then none
    else some { s with isListening := true, starting := asyncAcceptNum }
  | .initAccept obsoleted =>
    if 0 < s.starting ∧ s.canCreate cfg then
      some ({ s with starting := s.starting - 1 }.startNextAccept cfg obsoleted)
    else none
  | .stopListen => some s.stopListen
  | .accept i => s.accepts[i]?.map fun client =>
    { s with accepts := s.accepts.eraseIdx i, accepted := s.accepted ++ [client] }
  | .acceptFails i => s.accepts[i]?.map fun client =>
    { s with accepts := s.accepts.eraseIdx i, aborted := s.aborted ++ [client] }
  | .acceptHandler i onAccept =>
    s.accepted[i]?.map fun client => s.acceptHandler cfg i client onAccept
  | .acceptError i => s.aborted[i]?.map fun client => s.acceptError i client
  | .nextAccept i obsoleted =>
    if s.canCreate cfg then
      s.handling[i]?.map fun client =>
        { s with
          handling := s.handling.eraseIdx i
          returning := s.returning ++ [client] }.startNextAccept cfg obsoleted
    else none
  | .handlerReturns i => s.returning[i]?.map fun client =>
    { s with
      returning := s.returning.eraseIdx i
      pool := { s.pool with held := s.pool.held.erase client } }

def start (now : Nat) : ServerBase := ⟨ObjectPool.start now, false, 0, [], [], [], [], []⟩

section

variable {cfg : PoolConfig} {asyncAcceptNum : Nat} {s t : ServerBase}

theorem canCreate_iff : s.canCreate cfg = true ↔
    (cfg.reuseObject = true → s.pool.popping = []) ∧ s.pool.created < 2 ^ 64 := by
  unfold canCreate ObjectPool.unlocked
  cases cfg.reuseObject <;> simp

theorem step_initAccept {obsoleted : Object → Bool}
    (h : step cfg asyncAcceptNum s (.initAccept obsoleted) = some t) :
    0 < s.starting ∧ s.canCreate cfg = true ∧
      t = { s with starting := s.starting - 1 }.startNextAccept cfg obsoleted := by
  simp only [step] at h
  split at h
  · rename_i hboth
    exact ⟨hboth.1, hboth.2, (Option.some.inj h).symm⟩
  · cases h

theorem step_nextAccept {i : Nat} {obsoleted : Object → Bool}
    (h : step cfg asyncAcceptNum s (.nextAccept i obsoleted) = some t) :
    s.canCreate cfg = true ∧ ∃ client, s.handling[i]? = some client ∧
      t = { s with
        handling := s.handling.eraseIdx i
        returning := s.returning ++ [client] }.startNextAccept cfg obsoleted := by
  simp only [step] at h
  split at h
  · rename_i hcan
    obtain ⟨client, hi, rfl⟩ := Option.map_eq_some_iff.mp h
    exact ⟨hcan, client, hi, rfl⟩
  · cases h

end

/-! ## What is done to the pool -/

section Pool

variable {cfg : PoolConfig} {p q : ObjectPool}

theorem held_createObject (cfg : PoolConfig) (p : ObjectPool) (obsoleted : Object → Bool) :
    (p.createObject cfg obsoleted).2.held = p.held ++ [(p.createObject cfg obsoleted).1] := by
  unfold ObjectPool.createObject
  split <;> rfl

theorem perm_cons_eraseIdx {l : List Object} {i : Nat} {o : Object} (h : l[i]? = some o) :
    l.Perm (o :: l.eraseIdx i) := by
  obtain ⟨hlt, rfl⟩ := List.getElem?_eq_some_iff.mp h
  exact (List.perm_cons_erase (List.getElem_mem hlt)).trans ((List.erase_getElem hlt).cons _)

theorem places_of_split {front back : List TempObject} {u : TempObject}
    (hsplit : p.tempObjectCan = front ++ u :: back) (hcan : q.objectCan = p.objectCan)
    (hleaving : q.leaving = p.leaving) (htemp : q.tempObjectCan = front ++ back) :
    ∀ r ∈ q.places, r ∈ p.places :=
  fun _ hr => (ObjectPool.places_perm_of_temp hsplit hcan hleaving htemp).mem_iff.mpr
    (List.mem_cons_of_mem _ hr)

theorem places_createObject (cfg : PoolConfig) (haged : p.Aged) (obsoleted : Object → Bool) :
    ∀ r ∈ (p.createObject cfg obsoleted).2.places, r ∈ p.places := by
  unfold ObjectPool.createObject
  split
  · rename_i u rest hreuse
    obtain ⟨front, back, hsplit, rfl, _⟩ := ObjectPool.reuseObject_eq_some haged hreuse
    exact places_of_split hsplit rfl rfl rfl
  · exact fun r hr => hr

theorem places_hold (p : ObjectPool) (o : Option Object) : (p.hold o).places = p.places := by
  cases o <;> rfl

/-- Nothing gets into the pool but by `add_object`. -/
theorem places_step {a : ObjectPool.Action} (hp : ObjectPool.Sane cfg p)
    (hadd : ∀ o, a ≠ .addObject o) (hs : ObjectPool.step cfg p a = some q) :
    ∀ r ∈ q.places, r ∈ p.places := by
  cases a with
  | tick =>
    cases hs
    exact fun r hr => hr
  | createObject obsoleted =>
    obtain ⟨_, rfl⟩ := ObjectPool.step_createObject_eq hs
    exact places_createObject cfg hp.aged obsoleted
  | addObject o => exact absurd rfl (hadd o)
  | delObject o =>
    simp only [ObjectPool.step] at hs
    split at hs
    · rename_i ho
      cases hs
      exact fun r hr => (ObjectPool.delObject_places hp.named ho).mem_iff.mp hr
    · cases hs
  | clearAllClosedObject obsoleted =>
    cases hs
    exact fun r hr => (ObjectPool.clearAllClosedObject_places p obsoleted).mem_iff.mp hr
  | pushTemp i =>
    obtain ⟨_, o, hi, rfl⟩ := ObjectPool.step_pushTemp hs
    exact fun r hr => (ObjectPool.pushTemp_places hi).mem_iff.mp hr
  | freeObject num obsoleted =>
    obtain ⟨_, rfl⟩ := ObjectPool.step_freeObject_eq hs
    obtain ⟨taken, hperm, _⟩ := ObjectPool.freeObject_spec cfg hp.aged num obsoleted
    exact fun r hr => (ObjectPool.freeObject_places hperm).mem_iff.mp (List.mem_append_right _ hr)
  | find | closedObjectFind =>
    cases hs
    rw [places_hold]
    exact fun r hr => hr
  | closedObjectPop id =>
    cases hs
    obtain hsame | ⟨u, _, hpop⟩ := ObjectPool.closedObjectPop_cases p id
    · rw [hsame]
      exact fun r hr => hr
    · rw [hpop]
      exact fun r hr => hr
  | erasePopped i =>
    obtain ⟨u, _, rfl⟩ := Option.map_eq_some_iff.mp hs
    obtain ⟨gone, hplaces⟩ := ObjectPool.erasePopped_places p i u
    exact fun r hr => hplaces.mem_iff.mp (List.mem_append_left _ hr)
  | objectAt | closedObjectAt | copy =>
    obtain ⟨o, _, rfl⟩ := Option.map_eq_some_iff.mp hs
    exact fun r hr => hr
  | release =>
    obtain ⟨o, _, rfl⟩ := Option.map_eq_some_iff.mp hs
    exact fun r hr => hr

/-- A reference to an object that is in the pool, that is new, or that is
referred to already -/
def Gets (p : ObjectPool) (a : ObjectPool.Action) (o : Object) : Prop :=
  o ∈ p.places ∨ o.id = p.created ∨ ∃ i, a = .copy i ∧ p.held[i]? = some o

theorem held_hold {a : ObjectPool.Action} {o : Option Object} (ho : ∀ r ∈ o, Gets p a r) :
    (p.hold o).held = p.held ∨ ∃ r, (p.hold o).held = p.held ++ [r] ∧ Gets p a r := by
  cases o with
  | none => exact .inl rfl
  | some r => exact .inr ⟨r, rfl, ho r rfl⟩

/-- What a step does to the references. -/
theorem held_step {a : ObjectPool.Action} (hp : ObjectPool.Sane cfg p)
    (hfresh : ObjectPool.Fresh p a) (hs : ObjectPool.step cfg p a = some q) :
    q.held = p.held ∨ (∃ o, q.held = p.held ++ [o] ∧ Gets p a o) ∨
      ∃ i o, a = .release i ∧ p.held[i]? = some o ∧ p.held.Perm (o :: q.held) := by
  cases a with
  | tick | clearAllClosedObject =>
    cases hs
    exact .inl rfl
  | freeObject =>
    obtain ⟨_, rfl⟩ := ObjectPool.step_freeObject_eq hs
    exact .inl rfl
  | createObject obsoleted =>
    obtain ⟨_, rfl⟩ := ObjectPool.step_createObject_eq hs
    exact .inr (.inl ⟨_, held_createObject cfg p obsoleted, .inr (.inl
      ((ObjectPool.createObject_refs cfg hp.aged obsoleted).1.trans
        (ObjectPool.nextId_eq hfresh)))⟩)
  | addObject o =>
    simp only [ObjectPool.step] at hs
    split at hs
    · cases hs
      obtain hsame | ⟨_, _, hadd⟩ := ObjectPool.addObject_cases cfg p o
      · exact .inl (by rw [hsame])
      · exact .inl (by rw [hadd])
    · cases hs
  | delObject o =>
    simp only [ObjectPool.step] at hs
    split at hs
    · cases hs
      obtain ⟨_, hdel⟩ | ⟨_, _, _, _, _, hdel⟩ := ObjectPool.delObject_cases p o
      · exact .inl (by rw [hdel])
      · exact .inl (by rw [hdel])
    · cases hs
  | pushTemp i =>
    obtain ⟨_, _, _, rfl⟩ := ObjectPool.step_pushTemp hs
    exact .inl rfl
  | find id =>
    cases hs
    exact (held_hold fun r hr => .inl (List.mem_append_left _
      (List.mem_of_find?_eq_some hr))).imp_right .inl
  | closedObjectFind id =>
    cases hs
    refine (held_hold fun r hr => .inl ?_).imp_right .inl
    obtain ⟨u, hu, rfl⟩ := Option.map_eq_some_iff.mp hr
    exact List.mem_append_right _ (List.mem_append_right _
      (List.mem_map_of_mem (List.mem_of_find?_eq_some hu)))
  | closedObjectPop id =>
    cases hs
    obtain hsame | ⟨u, hu, hpop⟩ := ObjectPool.closedObjectPop_cases p id
    · exact .inl (by rw [hsame])
    · exact .inr (.inl ⟨u.object, by rw [hpop], .inl (List.mem_append_right _
        (List.mem_append_right _ (List.mem_map_of_mem hu)))⟩)
  | erasePopped i =>
    obtain ⟨_, _, rfl⟩ := Option.map_eq_some_iff.mp hs
    exact .inl rfl
  | objectAt index =>
    obtain ⟨o, ho, rfl⟩ := Option.map_eq_some_iff.mp hs
    exact .inr (.inl ⟨o, rfl, .inl (List.mem_append_left _ (List.mem_of_getElem? ho))⟩)
  | closedObjectAt index =>
    obtain ⟨u, hu, rfl⟩ := Option.map_eq_some_iff.mp hs
    exact .inr (.inl ⟨u.object, rfl, .inl (List.mem_append_right _ (List.mem_append_right _
      (List.mem_map_of_mem (List.mem_of_getElem? hu))))⟩)
  | copy i =>
    obtain ⟨o, ho, rfl⟩ := Option.map_eq_some_iff.mp hs
    exact .inr (.inl ⟨o, rfl, .inr (.inr ⟨i, rfl, ho⟩)⟩)
  | release i =>
    obtain ⟨o, ho, rfl⟩ := Option.map_eq_some_iff.mp hs
    exact .inr (.inr ⟨i, o, rfl, ho, perm_cons_eraseIdx ho⟩)

end Pool

/-! ## Every run -/

section Runs

variable {cfg : PoolConfig} {asyncAcceptNum : Nat} {s t : ServerBase}

/-- The handlers have their clients, each its own, and one that nobody has been
told of is not in the pool. -/
structure Kept (s : ServerBase) : Prop where
  once : s.clients.Nodup
  held : ∀ o ∈ s.clients, o ∈ s.pool.held
  sole : ∀ o ∈ s.waiting, o ∉ s.pool.places ∧ s.pool.held.count o = 1

theorem mem_clients_of_waiting {o : Object} (h : o ∈ s.waiting) : o ∈ s.clients :=
  List.mem_append_left _ h

theorem mem_refs_of_client (h : s.Kept) {o : Object} (ho : o ∈ s.clients) : o ∈ s.pool.refs :=
  ObjectPool.mem_refs_of_held (h.held o ho)

/-- What others may do is what the pool asks for. -/
theorem fresh_of_theirs {a : ObjectPool.Action} (htheirs : s.theirs a = true) :
    ObjectPool.Fresh s.pool a := by
  cases a with
  | addObject o => cases htheirs
  | createObject obsoleted => exact of_decide_eq_true htheirs
  | closedObjectFind | closedObjectPop | closedObjectAt => exact List.isEmpty_iff.mp htheirs
  | _ => trivial

/-- A client goes from one handler to another. -/
theorem Kept.moved (h : s.Kept) (hpool : t.pool = s.pool) (hclients : t.clients.Perm s.clients)
    (hwaiting : ∀ o ∈ t.waiting, o ∈ s.waiting) : t.Kept := by
  refine ⟨hclients.nodup_iff.mpr h.once, fun o ho => ?_, fun o ho => ?_⟩
  · rw [hpool]
    exact h.held o (hclients.mem_iff.mp ho)
  · rw [hpool]
    exact h.sole o (hwaiting o ho)

theorem Kept.pool {a : ObjectPool.Action} {q : ObjectPool} (h : s.Kept)
    (hs : ObjectPool.Sane cfg s.pool) (htheirs : s.theirs a = true)
    (hstep : ObjectPool.step cfg s.pool a = some q) : Kept { s with pool := q } := by
  have hplaces := places_step hs (fun o heq => by rw [heq] at htheirs; cases htheirs) hstep
  have hout : ∀ o ∈ s.waiting, o ∉ q.places := fun o ho hq => (h.sole o ho).1 (hplaces o hq)
  obtain hheld | ⟨r, hheld, hgets⟩ | ⟨i, r, rfl, hi, hperm⟩ :=
    held_step hs (fresh_of_theirs htheirs) hstep
  · refine ⟨h.once, fun o ho => ?_, fun o ho => ⟨hout o ho, ?_⟩⟩
    · exact hheld ▸ h.held o ho
    · exact hheld ▸ (h.sole o ho).2
  · refine ⟨h.once, fun o ho => ?_, fun o ho => ⟨hout o ho, ?_⟩⟩
    · exact hheld ▸ List.mem_append_left _ (h.held o ho)
    · have hne : r ≠ o := by
        rintro rfl
        obtain hplace | hnew | ⟨i, rfl, hi⟩ := hgets
        · exact (h.sole r ho).1 hplace
        · have hlt := (hs.named.known r (mem_refs_of_client h (mem_clients_of_waiting ho))).2.1
          omega
        · simp only [theirs, hi, Option.all_some, decide_eq_true_eq] at htheirs
          exact htheirs ho
      rw [hheld, List.count_append, List.count_singleton, (h.sole o ho).2]
      simp [hne]
  · simp only [theirs, hi, Option.all_some, decide_eq_true_eq] at htheirs
    have hcount : ∀ o, o ∈ s.clients →
        q.held.count o = s.pool.held.count o ∨ o = r ∧ 0 < q.held.count o ∧
          1 < s.pool.held.count o := by
      intro o ho
      have hmine : 0 < s.clients.count o := List.count_pos_iff.mpr ho
      by_cases hne : r = o
      · subst hne
        have hall := hperm.count_eq r
        rw [List.count_cons_self] at hall
        exact .inr ⟨rfl, by omega, by omega⟩
      · have hall := hperm.count_eq o
        rw [List.count_cons_of_ne hne] at hall
        exact .inl hall.symm
    refine ⟨h.once, fun o ho => ?_, fun o ho => ⟨hout o ho, ?_⟩⟩
    · obtain hsame | ⟨_, hpos, _⟩ := hcount o ho
      · have hpos := List.count_pos_iff.mpr (h.held o ho)
        exact List.count_pos_iff.mp (hsame.symm ▸ hpos)
      · exact List.count_pos_iff.mp hpos
    · have hone := (h.sole o ho).2
      obtain hsame | ⟨_, _, hmore⟩ := hcount o (mem_clients_of_waiting ho)
      · exact hsame.trans hone
      · omega

/-- A new client is nobody else's. -/
theorem Kept.create (h : s.Kept) (hs : ObjectPool.Sane cfg s.pool)
    (hids : s.pool.created < 2 ^ 64) (obsoleted : Object → Bool) :
    (s.startNextAccept cfg obsoleted).Kept := by
  obtain ⟨hid, _⟩ := ObjectPool.createObject_refs cfg hs.aged obsoleted
  rw [ObjectPool.nextId_eq hids] at hid
  have hheld := held_createObject cfg s.pool obsoleted
  have hplaces := places_createObject cfg hs.aged obsoleted
  unfold startNextAccept
  generalize s.pool.createObject cfg obsoleted = created at *
  obtain ⟨client, pool⟩ := created
  simp only at hid hheld hplaces ⊢
  have hold : ∀ o ∈ s.pool.refs, o ≠ client := by
    rintro o ho rfl
    have hlt := (hs.named.known o ho).2.1
    omega
  have hother : ∀ o ∈ s.clients, o ≠ client := fun o ho => hold o (mem_refs_of_client h ho)
  have hboth : ∀ t : ServerBase, t.pool = pool → t.clients.Perm (client :: s.clients) →
      (∀ o ∈ t.waiting, o = client ∨ o ∈ s.waiting) → t.Kept := by
    rintro t rfl hclients hwaiting
    refine ⟨hclients.nodup_iff.mpr (List.nodup_cons.mpr
      ⟨fun hmem => hother client hmem rfl, h.once⟩), fun o ho => ?_, fun o ho => ?_⟩
    · rw [hheld]
      obtain rfl | hin := List.mem_cons.mp (hclients.mem_iff.mp ho)
      · exact List.mem_append_right _ (List.mem_singleton.mpr rfl)
      · exact List.mem_append_left _ (h.held o hin)
    · rw [hheld, List.count_append, List.count_singleton]
      obtain rfl | hin := hwaiting o ho
      · refine ⟨fun hplace => hold o (List.mem_append_left _ (hplaces o hplace)) rfl, ?_⟩
        rw [List.count_eq_zero.mpr fun hmem => hold o (ObjectPool.mem_refs_of_held hmem) rfl]
        simp
      · refine ⟨fun hplace => (h.sole o hin).1 (hplaces o hplace), ?_⟩
        have hne := hother o (mem_clients_of_waiting hin)
        rw [(h.sole o hin).2]
        simp [hne.symm]
  split
  · refine hboth _ rfl (List.perm_iff_count.mpr fun x => ?_) fun o ho => ?_
    · simp only [clients, waiting, List.count_append, List.count_cons, List.count_nil]
      omega
    · simp only [waiting, List.mem_append, List.mem_singleton] at ho ⊢
      tauto
  · refine hboth _ rfl (List.perm_iff_count.mpr fun x => ?_) fun o ho => ?_
    · simp only [clients, waiting, List.count_append, List.count_cons, List.count_nil]
      omega
    · simp only [waiting, List.mem_append, List.mem_singleton] at ho ⊢
      tauto

theorem mem_waiting_of_accepted {o : Object} (h : o ∈ s.accepted) : o ∈ s.waiting :=
  List.mem_append_right _ (List.mem_append_left _ h)

/-- The client comes into the pool, if it does, from outside. -/
theorem Kept.acceptHandler (h : s.Kept) {i : Nat} {client : Object}
    (hi : s.accepted[i]? = some client) (onAccept : Bool) :
    (s.acceptHandler cfg i client onAccept).Kept ∧
      Reach (ObjectPool.step cfg) ObjectPool.Fresh s.pool
        (s.acceptHandler cfg i client onAccept).pool := by
  have hperm := perm_cons_eraseIdx hi
  have hmem := mem_waiting_of_accepted (List.mem_of_getElem? hi)
  have hclients : (s.acceptHandler cfg i client onAccept).clients.Perm s.clients := by
    refine List.perm_iff_count.mpr fun x => ?_
    have hcount := hperm.count_eq x
    simp only [clients, waiting, ServerBase.acceptHandler, List.count_append, List.count_cons,
      List.count_nil] at hcount ⊢
    omega
  have hwaiting : ∀ o ∈ (s.acceptHandler cfg i client onAccept).waiting, o ∈ s.waiting := by
    intro o ho
    simp only [waiting, ServerBase.acceptHandler, List.mem_append] at ho ⊢
    exact ho.imp_right (·.imp_left List.mem_of_mem_eraseIdx)
  cases onAccept with
  | false => exact ⟨h.moved rfl hclients hwaiting, .refl⟩
  | true =>
    have hpool : (s.acceptHandler cfg i client true).pool = (s.pool.addObject cfg client).2 := rfl
    have hout := (h.sole client hmem).1
    have hfresh : ObjectPool.Fresh s.pool (.addObject client) := by
      constructor
      · rintro p hp rfl
        exact hout (List.mem_append_right _ (List.mem_append_left _ (List.mem_map_of_mem hp)))
      · rintro u hu rfl
        exact hout (List.mem_append_right _ (List.mem_append_right _ (List.mem_map_of_mem hu)))
    have hheld := h.held client (mem_clients_of_waiting hmem)
    refine ⟨?_, .single (a := .addObject client) hfresh (if_pos hheld)⟩
    obtain hsame | ⟨_, _, hadd⟩ := ObjectPool.addObject_cases cfg s.pool client
    · exact h.moved (hpool.trans hsame) hclients hwaiting
    · rw [hadd] at hpool
      refine ⟨hclients.nodup_iff.mpr h.once, fun o ho => ?_, fun o ho => ?_⟩
      · rw [hpool]
        exact h.held o (hclients.mem_iff.mp ho)
      · rw [hpool]
        obtain ⟨hplaces, hone⟩ := h.sole o (hwaiting o ho)
        refine ⟨fun hmem => ?_, hone⟩
        simp only [ObjectPool.places, List.mem_append, List.mem_singleton] at hmem hplaces
        obtain (hcan | rfl) | hrest := hmem
        · exact hplaces (.inl hcan)
        · have hcount := (hclients.nodup_iff.mpr h.once)
          refine (List.nodup_append.mp hcount).2.2 o ho o ?_ rfl
          exact List.mem_append_left _ (List.mem_append_right _ (List.mem_singleton.mpr rfl))
        · exact hplaces (.inr hrest)

/-- What a handler that returns has held it lets go. -/
theorem Kept.handlerReturns (h : s.Kept) {i : Nat} {client : Object}
    (hi : s.returning[i]? = some client)
    (ht : t = { s with
      returning := s.returning.eraseIdx i
      pool := { s.pool with held := s.pool.held.erase client } }) :
    t.Kept ∧ Reach (ObjectPool.step cfg) ObjectPool.Fresh s.pool t.pool := by
  subst ht
  have hmem : client ∈ s.clients :=
    List.mem_append_right _ (List.mem_append_right _ (List.mem_of_getElem? hi))
  have hperm : s.clients.Perm
      (client :: { s with returning := s.returning.eraseIdx i }.clients) := by
    refine List.perm_iff_count.mpr fun x => ?_
    have hcount := (perm_cons_eraseIdx hi).count_eq x
    simp only [clients, waiting, List.count_append, List.count_cons] at hcount ⊢
    omega
  have honce := List.nodup_cons.mp (hperm.nodup_iff.mp h.once)
  have hne : ∀ o ∈ { s with returning := s.returning.eraseIdx i }.clients, o ≠ client := by
    rintro o ho rfl
    exact honce.1 ho
  constructor
  · refine ⟨honce.2, fun o ho => ?_, fun o ho => ?_⟩
    · exact (List.mem_erase_of_ne (hne o ho)).mpr
        (h.held o (hperm.mem_iff.mpr (List.mem_cons_of_mem _ ho)))
    · obtain ⟨hplaces, hone⟩ := h.sole o ho
      refine ⟨hplaces, ?_⟩
      rw [List.count_erase_of_ne (hne o (mem_clients_of_waiting ho)), hone]
  · have hheld : s.pool.held[s.pool.held.idxOf client]? = some client := by
      rw [List.getElem?_eq_some_iff]
      exact ⟨List.idxOf_lt_length_iff.mpr (h.held client hmem), List.getElem_idxOf _⟩
    refine .single (a := .release (s.pool.held.idxOf client)) trivial ?_
    simp only [ObjectPool.step, hheld, Option.map_some]
    rw [List.erase_eq_eraseIdx_of_idxOf rfl]

/-- `start_next_accept` creates an object and does nothing else to the pool. -/
theorem Kept.next (h : s.Kept) (hs : ObjectPool.Sane cfg s.pool) (hcan : s.canCreate cfg = true)
    (obsoleted : Object → Bool) :
    (s.startNextAccept cfg obsoleted).Kept ∧ Reach (ObjectPool.step cfg) ObjectPool.Fresh s.pool
      (s.startNextAccept cfg obsoleted).pool := by
  obtain ⟨hlock, hids⟩ := canCreate_iff.mp hcan
  refine ⟨h.create hs hids obsoleted, .single (a := .createObject obsoleted) hids ?_⟩
  have hcreate : ObjectPool.step cfg s.pool (.createObject obsoleted) =
      some (s.pool.createObject cfg obsoleted).2 := by
    refine if_pos ?_
    unfold ObjectPool.unlocked
    cases hreuse : cfg.reuseObject with
    | true =>
      rw [hlock hreuse]
      rfl
    | false => rfl
  rw [hcreate]
  unfold startNextAccept
  simp only
  split <;> rfl

/-- `async_accept` is answered, and the handler queued. -/
theorem Kept.answered (h : s.Kept) {i : Nat} {client : Object} (hi : s.accepts[i]? = some client)
    (hpool : t.pool = s.pool) (haccepts : t.accepts = s.accepts.eraseIdx i)
    (hqueued : (t.accepted ++ t.aborted).Perm (client :: (s.accepted ++ s.aborted)))
    (hrest : t.handling ++ t.returning = s.handling ++ s.returning) : t.Kept := by
  have hperm : t.waiting.Perm s.waiting := by
    refine List.perm_iff_count.mpr fun x => ?_
    have hcount := (perm_cons_eraseIdx hi).count_eq x
    have hmoved := hqueued.count_eq x
    simp only [waiting, haccepts, List.count_append, List.count_cons] at hcount hmoved ⊢
    omega
  refine h.moved hpool ?_ fun o ho => hperm.mem_iff.mp ho
  rw [clients, clients, hrest]
  exact hperm.append_right _

theorem perm_stopListen (s : ServerBase) : s.stopListen.waiting.Perm s.waiting := by
  refine List.perm_iff_count.mpr fun x => ?_
  simp only [waiting, stopListen, List.count_append, List.count_nil]
  omega

/-- A step of the server is some steps of the pool, none of which adds an object
that has been there. -/
theorem Kept.step {a : Action} (h : s.Kept) (hsane : ObjectPool.Sane cfg s.pool)
    (hs : step cfg asyncAcceptNum s a = some t) :
    t.Kept ∧ Reach (ObjectPool.step cfg) ObjectPool.Fresh s.pool t.pool := by
  cases a with
  | pool a =>
    simp only [ServerBase.step] at hs
    split at hs
    · rename_i htheirs
      obtain ⟨q, hq, rfl⟩ := Option.map_eq_some_iff.mp hs
      exact ⟨h.pool hsane htheirs hq, .single (fresh_of_theirs htheirs) hq⟩
    · cases hs
  | init =>
    simp only [ServerBase.step] at hs
    split at hs
    · cases hs
    · cases hs
      exact ⟨h.moved rfl (List.Perm.refl _) fun _ ho => ho, .refl⟩
  | initAccept obsoleted =>
    obtain ⟨_, hcan, rfl⟩ := step_initAccept hs
    have hkept : Kept { s with starting := s.starting - 1 } :=
      h.moved rfl (List.Perm.refl _) fun _ ho => ho
    exact hkept.next hsane hcan obsoleted
  | stopListen =>
    cases hs
    exact ⟨h.moved rfl ((perm_stopListen s).append_right _) fun o ho =>
      (perm_stopListen s).mem_iff.mp ho, .refl⟩
  | accept i =>
    obtain ⟨client, hi, rfl⟩ := Option.map_eq_some_iff.mp hs
    refine ⟨h.answered hi rfl rfl ?_ rfl, .refl⟩
    rw [List.append_assoc]
    exact List.perm_middle
  | acceptFails i =>
    obtain ⟨client, hi, rfl⟩ := Option.map_eq_some_iff.mp hs
    refine ⟨h.answered hi rfl rfl ?_ rfl, .refl⟩
    rw [← List.append_assoc]
    exact List.perm_append_singleton client _
  | acceptHandler i onAccept =>
    obtain ⟨client, hi, rfl⟩ := Option.map_eq_some_iff.mp hs
    exact h.acceptHandler hi onAccept
  | acceptError i =>
    obtain ⟨client, hi, rfl⟩ := Option.map_eq_some_iff.mp hs
    refine ⟨h.moved rfl (List.perm_iff_count.mpr fun x => ?_) fun o ho => ?_, .refl⟩
    · have hcount := (perm_cons_eraseIdx hi).count_eq x
      simp only [clients, waiting, acceptError, stopListen, List.count_append, List.count_cons,
        List.count_nil] at hcount ⊢
      omega
    · have hin := (perm_stopListen _).mem_iff.mp ho
      simp only [waiting, List.mem_append] at hin ⊢
      exact hin.imp_right (·.imp_right List.mem_of_mem_eraseIdx)
  | nextAccept i obsoleted =>
    obtain ⟨hcan, client, hi, rfl⟩ := step_nextAccept hs
    have hkept : Kept { s with
        handling := s.handling.eraseIdx i, returning := s.returning ++ [client] } := by
      refine h.moved rfl (List.perm_iff_count.mpr fun x => ?_) fun o ho => ho
      have hcount := (perm_cons_eraseIdx hi).count_eq x
      simp only [clients, waiting, List.count_append, List.count_cons, List.count_nil] at hcount ⊢
      omega
    exact hkept.next hsane hcan obsoleted
  | handlerReturns i =>
    obtain ⟨client, hi, rfl⟩ := Option.map_eq_some_iff.mp hs
    exact h.handlerReturns hi rfl

theorem reach_kept {now : Nat} (h : Reach (step cfg asyncAcceptNum) always (start now) s) :
    s.Kept ∧ Reach (ObjectPool.step cfg) ObjectPool.Fresh (ObjectPool.start now) s.pool := by
  refine Reach.invariant (P := fun s => s.Kept ∧ Reach (ObjectPool.step cfg) ObjectPool.Fresh
    (ObjectPool.start now) s.pool) ?_ (fun s a t _ ih _ hs => ?_) h
  · have hnone : ∀ {P : Object → Prop}, ∀ o ∈ ([] : List Object), P o :=
      fun _ ho => (List.not_mem_nil ho).elim
    exact ⟨⟨List.nodup_nil, hnone, hnone⟩, .refl⟩
  · obtain ⟨hkept, hsteps⟩ := ih.1.step (ObjectPool.reach_sane ih.2) hs
    exact ⟨hkept, ih.2.trans hsteps⟩

/-! ## How many accepts -/

/-- The accepts and handlers that lead to another accept, or close the acceptor -/
def pending (s : ServerBase) : Nat :=
  s.accepts.length + s.accepted.length + s.aborted.length + s.handling.length

/-- The server is not started again before the handlers of the last time have run. -/
def Restarted : ServerBase → Action → Prop
  | s, .init => s.pending = 0
  | _, _ => True

instance (s : ServerBase) (a : Action) : Decidable (Restarted s a) := by
  unfold Restarted
  split <;> infer_instance

theorem pending_startNextAccept (cfg : PoolConfig) (s : ServerBase) (obsoleted : Object → Bool) :
    (s.startNextAccept cfg obsoleted).pending = s.pending + 1 ∧
      (s.startNextAccept cfg obsoleted).starting = s.starting ∧
      (s.startNextAccept cfg obsoleted).isListening = s.isListening := by
  unfold startNextAccept
  simp only
  split
  · refine ⟨?_, rfl, rfl⟩
    simp only [pending, List.length_append, List.length_singleton]
    omega
  · refine ⟨?_, rfl, rfl⟩
    simp only [pending, List.length_append, List.length_singleton]
    omega

/-- As long as the acceptor stays open, each accept is followed by the next one. -/
theorem step_pending {a : Action} (hs : step cfg asyncAcceptNum s a = some t)
    (ht : t.isListening = true) :
    (a = .init ∧ t.starting = asyncAcceptNum ∧ t.pending = s.pending) ∨
      (s.isListening = true ∧ t.starting + t.pending = s.starting + s.pending) := by
  cases a with
  | pool a =>
    simp only [step] at hs
    split at hs
    · obtain ⟨q, _, rfl⟩ := Option.map_eq_some_iff.mp hs
      exact .inr ⟨ht, rfl⟩
    · cases hs
  | init =>
    simp only [step] at hs
    split at hs
    · cases hs
    · cases hs
      exact .inl ⟨rfl, rfl, rfl⟩
  | initAccept obsoleted =>
    obtain ⟨hpos, _, rfl⟩ := step_initAccept hs
    obtain ⟨hpending, hstarting, hlistening⟩ := pending_startNextAccept cfg
      { s with starting := s.starting - 1 } obsoleted
    rw [hlistening] at ht
    refine .inr ⟨ht, ?_⟩
    rw [hpending, hstarting]
    simp only [pending]
    omega
  | stopListen =>
    cases hs
    cases ht
  | accept i | acceptFails i =>
    obtain ⟨client, hi, rfl⟩ := Option.map_eq_some_iff.mp hs
    have hlength := (perm_cons_eraseIdx hi).length_eq
    refine .inr ⟨ht, ?_⟩
    simp only [pending, List.length_append, List.length_cons, List.length_nil] at hlength ⊢
    omega
  | acceptHandler i onAccept =>
    obtain ⟨client, hi, rfl⟩ := Option.map_eq_some_iff.mp hs
    have hlength := (perm_cons_eraseIdx hi).length_eq
    refine .inr ⟨ht, ?_⟩
    simp only [pending, acceptHandler, List.length_append, List.length_cons,
      List.length_nil] at hlength ⊢
    omega
  | acceptError i =>
    obtain ⟨client, _, rfl⟩ := Option.map_eq_some_iff.mp hs
    cases ht
  | nextAccept i obsoleted =>
    obtain ⟨_, client, hi, rfl⟩ := step_nextAccept hs
    have hlength := (perm_cons_eraseIdx hi).length_eq
    obtain ⟨hpending, hstarting, hlistening⟩ := pending_startNextAccept cfg
      { s with handling := s.handling.eraseIdx i, returning := s.returning ++ [client] } obsoleted
    rw [hlistening] at ht
    refine .inr ⟨ht, ?_⟩
    rw [hpending, hstarting]
    simp only [pending, List.length_cons] at hlength ⊢
    omega
  | handlerReturns i =>
    obtain ⟨client, _, rfl⟩ := Option.map_eq_some_iff.mp hs
    exact .inr ⟨ht, rfl⟩

/-- **A server's pool** is a pool, in every run: an object is added only if it
has not been there before, and a client that is waited for is not in the pool
and has no reference but that of the handler. While the acceptor is open, the
set number of accepts is under way or being handled; if the server has been
started too soon there may be more of them. -/
theorem server_pool (cfg : PoolConfig) (asyncAcceptNum now : Nat) (s : ServerBase)
    (h : Reach (step cfg asyncAcceptNum) always (start now) s) :
    Reach (ObjectPool.step cfg) ObjectPool.Fresh (ObjectPool.start now) s.pool ∧
      (∀ o ∈ s.accepts ++ (s.accepted ++ s.aborted), o ∉ s.pool.places ∧
        s.pool.held.count o = 1) ∧
      (s.isListening = true → asyncAcceptNum ≤ s.starting + s.pending) ∧
      (Reach (step cfg asyncAcceptNum) Restarted (start now) s → s.isListening = true →
        s.starting + s.pending = asyncAcceptNum) := by
  obtain ⟨hkept, hpool⟩ := reach_kept h
  refine ⟨hpool, hkept.sole, ?_, fun hrestarted => ?_⟩
  · refine Reach.invariant (P := fun s => s.isListening = true →
      asyncAcceptNum ≤ s.starting + s.pending) (fun hfalse => ?_)
      (fun s a t _ ih _ hs ht => ?_) h
    · cases hfalse
    · obtain ⟨_, hstarting, _⟩ | ⟨hlistening, hsame⟩ := step_pending hs ht
      · omega
      · have hle := ih hlistening
        omega
  · refine Reach.invariant (P := fun s => s.isListening = true →
      s.starting + s.pending = asyncAcceptNum) (fun hfalse => ?_)
      (fun s a t _ ih hok hs ht => ?_) hrestarted
    · cases hfalse
    · obtain ⟨rfl, hstarting, hpending⟩ | ⟨hlistening, hsame⟩ := step_pending hs ht
      · have hnone : s.pending = 0 := hok
        omega
      · exact hsame.trans (ih hlistening)

/-- Two clients, of which the pool has room for one; two more are waited for. -/
theorem server_pool_full : ∃ s : ServerBase, s.pool.objectCan = [⟨0, 0⟩] ∧
    s.accepts = [⟨2, 2⟩, ⟨3, 3⟩] ∧ s.pool.held.count ⟨3, 3⟩ = 1 ∧ s.starting + s.pending = 2 := by
  let cfg : PoolConfig := ⟨1, 5, true⟩
  let all : Object → Bool := fun _ => true
  let acts : List Action := [.init, .initAccept all, .initAccept all, .accept 0, .accept 0,
    .acceptHandler 0 true, .acceptHandler 0 true, .nextAccept 0 all, .nextAccept 0 all,
    .handlerReturns 0, .handlerReturns 0]
  have hrun : (exec (guarded (step cfg 2) Restarted) (start 0) acts).map
      (fun s => (s.pool.objectCan, s.accepts, s.isListening)) =
      some ([⟨0, 0⟩], [⟨2, 2⟩, ⟨3, 3⟩], true) := by
    decide +kernel
  obtain ⟨s, hs, hseen⟩ := Option.map_eq_some_iff.mp hrun
  simp only [Prod.mk.injEq] at hseen
  obtain ⟨hcan, haccepts, hlistening⟩ := hseen
  have hrestarted : Reach (step cfg 2) Restarted (start 0) s := Reach.of_exec_guarded acts hs
  obtain ⟨_, hsole, _, hpending⟩ := server_pool cfg 2 0 s (hrestarted.mono fun _ _ _ => trivial)
  refine ⟨s, hcan, haccepts, (hsole ⟨3, 3⟩ ?_).2, hpending hrestarted hlistening⟩
  rw [haccepts]
  exact List.mem_append_left _ (List.mem_cons_of_mem _ (List.mem_cons_self ..))

end Runs

end ServerBase

end AsioTcp.Wrapper
