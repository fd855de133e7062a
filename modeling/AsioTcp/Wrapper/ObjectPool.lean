import Mathlib.Algebra.Group.Nat.Defs
import AsioTcp.Lib.AgeOrder
import AsioTcp.Lib.Transition

/-!
# `st_object_pool`

Objects are created, added to `object_can`, taken out of it into
`temp_object_can`, and freed or used again after a while. Any number of threads
does so, and holds on to objects that it has been given. The calls are under
their locks; `closed_object_pop`, which erases under a shared one, is two steps,
so that others that take the lock shared can come between. Each object is in one
place at a time and has an id of its own (`pool_once`); the loops over
`temp_object_can` may stop at the first object that is too young (`pool_by_age`);
and what is freed or used again is nobody's any more (`pool_reclaims`).
-/

namespace AsioTcp.Wrapper

open Transition

/-- `MAX_OBJECT_NUM`, `CLOSED_SOCKET_MAX_DURATION` and `REUSE_OBJECT` -/
structure PoolConfig where
  maxObjectNum : Nat
  closedSocketMaxDuration : Nat
  reuseObject : Bool

/-- Where an object lies, and the id that it has been given. -/
structure Object where
  address : Nat
  id : Nat
  deriving DecidableEq

/-- `temp_object`, and when the object has been taken out of `object_can`. -/
structure TempObject where
  closedTime : Nat
  object : Object
  leftTime : Nat
  deriving DecidableEq

/-- The pool, what has been taken out of `object_can` and is to go into
`temp_object_can`, the iterators that calls of `closed_object_pop` have yet to
erase and whether one has been erased that was no longer in the list, each other
`shared_ptr` to an object, and where the freed objects lay. `created` objects
have been given an id. -/
structure ObjectPool where
  now : Nat
  created : Nat
  nextAddress : Nat
  objectCan : List Object
  tempObjectCan : List TempObject
  leaving : List (Nat × Object)
  popping : List TempObject
  erasedTwice : Bool
  held : List Object
  freed : List Nat
  deriving DecidableEq

namespace ObjectPool

variable (cfg : PoolConfig)

/-- What is in the pool or on its way there. -/
def places (s : ObjectPool) : List Object :=
  s.objectCan ++ (s.leaving.map Prod.snd ++ s.tempObjectCan.map TempObject.object)

/-- Every `shared_ptr` to an object. -/
def refs (s : ObjectPool) : List Object := s.places ++ s.held

/-- `shared_ptr::unique` -/
def unique (s : ObjectPool) (o : Object) : Bool :=
  s.refs.countP (fun r => r.address = o.address) = 1

/-- `is_timeout` -/
def isTimeout (s : ObjectPool) (t : TempObject) : Bool :=
  t.closedTime + cfg.closedSocketMaxDuration ≤ s.now

/-- The condition of the loops over `temp_object_can` -/
def idle (s : ObjectPool) (obsoleted : Object → Bool) (t : TempObject) : Bool :=
  s.unique t.object && obsoleted t.object

/-- `reuse_object` -/
def reuseObject (s : ObjectPool) (obsoleted : Object → Bool) :
    Option (TempObject × List TempObject) :=
  if cfg.reuseObject then
    AgeOrder.popWhile (s.isTimeout cfg) (s.idle obsoleted) s.tempObjectCan
  else none

/-- `++cur_id`, an `atomic_uint_fast64_t` that starts from -1 -/
def nextId (s : ObjectPool) : Nat := s.created % 2 ^ 64

/-- `create_object` -/
def createObject (s : ObjectPool) (obsoleted : Object → Bool) : Object × ObjectPool :=
  match s.reuseObject cfg obsoleted with
  | some (t, rest) =>
    let o : Object := ⟨t.object.address, s.nextId⟩
    (o, { s with created := s.created + 1, tempObjectCan := rest, held := s.held ++ [o] })
  | none =>
    let o : Object := ⟨s.nextAddress, s.nextId⟩
    (o, { s with
      created := s.created + 1, nextAddress := s.nextAddress + 1, held := s.held ++ [o] })

/-- `add_object`; objects with the same id are equal. -/
def addObject (s : ObjectPool) (o : Object) : Bool × ObjectPool :=
  if s.objectCan.length < cfg.maxObjectNum then
    if s.objectCan.any fun r => r.id = o.id then (false, s)
    else (true, { s with objectCan := s.objectCan ++ [o] })
  else (false, s)

/-- `del_object` up to the second lock -/
def delObject (s : ObjectPool) (o : Object) : Bool × ObjectPool :=
  if s.objectCan.any fun r => r.id = o.id then
    (true, { s with
      objectCan := s.objectCan.eraseP fun r => r.id = o.id, leaving := s.leaving ++ [(s.now, o)] })
  else (false, s)

/-- `clear_all_closed_object` up to the second lock -/
def clearAllClosedObject (s : ObjectPool) (obsoleted : Object → Bool) : ObjectPool :=
  let closed := fun o => s.unique o && obsoleted o
  { s with
    objectCan := s.objectCan.filter fun o => !closed o
    leaving := s.leaving ++ (s.objectCan.filter closed).map fun o => (s.now, o) }

/-- `temp_object_can.push_back`, one by one for `clear_all_closed_object` -/
def pushTemp (s : ObjectPool) (i : Nat) (o : Nat × Object) : ObjectPool :=
  { s with
    leaving := s.leaving.eraseIdx i, tempObjectCan := s.tempObjectCan ++ [⟨s.now, o.2, o.1⟩] }

/-- `free_object` -/
def freeObject (s : ObjectPool) (num : Nat) (obsoleted : Object → Bool) : ObjectPool :=
  let (freed, rest) :=
    AgeOrder.takeWhile (s.isTimeout cfg) (s.idle obsoleted) num s.tempObjectCan
  { s with tempObjectCan := rest, freed := s.freed ++ freed.map (·.object.address) }

/-- `find` -/
def find (s : ObjectPool) (id : Nat) : Option Object := s.objectCan.find? fun o => o.id = id

/-- `closed_object_find` -/
def closedObjectFind (s : ObjectPool) (id : Nat) : Option Object :=
  (s.tempObjectCan.find? fun t => id = t.object.id).map TempObject.object

/-- `closed_object_pop` up to `erase` -/
def closedObjectPop (s : ObjectPool) (id : Nat) : Option Object × ObjectPool :=
  match s.tempObjectCan.find? fun t => id = t.object.id with
  | some t =>
    (some t.object, { s with popping := s.popping ++ [t], held := s.held ++ [t.object] })
  | none => (none, s)

/-- `temp_object_can.erase(iter)` in there -/
def erasePopped (s : ObjectPool) (i : Nat) (t : TempObject) : ObjectPool :=
  { s with
    popping := s.popping.eraseIdx i, tempObjectCan := s.tempObjectCan.erase t
    erasedTwice := s.erasedTwice || t ∉ s.tempObjectCan }

/-- `temp_object_can_mutex` can be locked exclusively. -/
def unlocked (s : ObjectPool) : Bool := s.popping.isEmpty

def hold (s : ObjectPool) (o : Option Object) : ObjectPool :=
  match o with
  | some o => { s with held := s.held ++ [o] }
  | none => s

/-- What `obsoleted()` returns is left open. -/
inductive Action
  | tick (seconds : Nat)
  | createObject (obsoleted : Object → Bool)
  | addObject (o : Object)
  | delObject (o : Object)
  | clearAllClosedObject (obsoleted : Object → Bool)
  /-- the second half of these two -/
  | pushTemp (i : Nat)
  | freeObject (num : Nat) (obsoleted : Object → Bool)
  | find (id : Nat)
  | closedObjectFind (id : Nat)
  | closedObjectPop (id : Nat)
  /-- the second half of `closed_object_pop` -/
  | erasePopped (i : Nat)
  /-- `at` and `closed_object_at` -/
  | objectAt (index : Nat)
  | closedObjectAt (index : Nat)
  /-- a `shared_ptr` is copied, or goes out of scope -/
  | copy (i : Nat)
  | release (i : Nat)

def step (s : ObjectPool) : Action → Option ObjectPool
  | .tick seconds => some { s with now := s.now + seconds }
  | .createObject obsoleted =>
    if !cfg.reuseObject || s.unlocked then some (s.createObject cfg obsoleted).2 else none
  | .addObject o => if o ∈ s.held then some (s.addObject cfg o).2 else none
  | .delObject o => if o ∈ s.held then some (s.delObject o).2 else none
  | .clearAllClosedObject obsoleted => some (s.clearAllClosedObject obsoleted)
  | .pushTemp i => if s.unlocked then s.leaving[i]?.map (s.pushTemp i) else none
  | .freeObject num obsoleted =>
    if s.unlocked then some (s.freeObject cfg num obsoleted) else none
  | .find id => some (s.hold (s.find id))
  | .closedObjectFind id => some (s.hold (s.closedObjectFind id))
  | .closedObjectPop id => some (s.closedObjectPop id).2
  | .erasePopped i => s.popping[i]?.map (s.erasePopped i)
  | .objectAt index => s.objectCan[index]?.map fun o => s.hold (some o)
  | .closedObjectAt index => s.tempObjectCan[index]?.map fun t => s.hold (some t.object)
  | .copy i => s.held[i]?.map fun o => s.hold (some o)
  | .release i => s.held[i]?.map fun _ => { s with held := s.held.eraseIdx i }

/-- A new pool. -/
def start (now : Nat) : ObjectPool := ⟨now, 0, 0, [], [], [], [], false, [], []⟩

/-! ## What the functions do -/

section Functions

variable {cfg : PoolConfig}

theorem addObject_cases (cfg : PoolConfig) (s : ObjectPool) (o : Object) :
    (s.addObject cfg o).2 = s ∨
    (s.objectCan.length < cfg.maxObjectNum ∧ (∀ r ∈ s.objectCan, r.id ≠ o.id) ∧
      s.addObject cfg o = (true, { s with objectCan := s.objectCan ++ [o] })) := by
  unfold addObject
  split
  · rename_i hroom
    split
    · exact .inl rfl
    · rename_i hnone
      refine .inr ⟨hroom, fun r hr hid => hnone ?_, rfl⟩
      exact List.any_eq_true.mpr ⟨r, hr, decide_eq_true hid⟩
  · exact .inl rfl

theorem delObject_cases (s : ObjectPool) (o : Object) :
    ((∀ r ∈ s.objectCan, r.id ≠ o.id) ∧ s.delObject o = (false, s)) ∨
    ∃ r front back, s.objectCan = front ++ r :: back ∧ r.id = o.id ∧
      s.delObject o = (true, { s with
        objectCan := front ++ back, leaving := s.leaving ++ [(s.now, o)] }) := by
  unfold delObject
  split
  · rename_i hany
    obtain ⟨r, hr, hid⟩ := List.any_eq_true.mp hany
    obtain ⟨r, front, back, _, hid, hsplit, herase⟩ :=
      List.exists_of_eraseP (p := fun r => decide (r.id = o.id)) hr hid
    exact .inr ⟨r, front, back, hsplit, of_decide_eq_true hid, by rw [herase]⟩
  · rename_i hnone
    refine .inl ⟨fun r hr hid => hnone ?_, rfl⟩
    exact List.any_eq_true.mpr ⟨r, hr, decide_eq_true hid⟩

theorem closedObjectPop_cases (s : ObjectPool) (id : Nat) :
    (s.closedObjectPop id).2 = s ∨
    ∃ t ∈ s.tempObjectCan, s.closedObjectPop id = (some t.object, { s with
      popping := s.popping ++ [t], held := s.held ++ [t.object] }) := by
  unfold closedObjectPop
  split
  · rename_i t hfind
    exact .inr ⟨t, List.mem_of_find?_eq_some hfind, rfl⟩
  · exact .inl rfl

theorem erasePopped_cases (s : ObjectPool) (i : Nat) (t : TempObject) :
    (t ∉ s.tempObjectCan ∧ (s.erasePopped i t).tempObjectCan = s.tempObjectCan) ∨
    ∃ front back, s.tempObjectCan = front ++ t :: back ∧ s.erasePopped i t = { s with
      popping := s.popping.eraseIdx i, tempObjectCan := front ++ back } := by
  by_cases hmem : t ∈ s.tempObjectCan
  · obtain ⟨front, back, _, hsplit, herase⟩ := List.exists_erase_eq hmem
    refine .inr ⟨front, back, hsplit, ?_⟩
    simp only [erasePopped, herase, hmem, not_true_eq_false, decide_false, Bool.or_false]
  · exact .inl ⟨hmem, List.erase_of_not_mem hmem⟩

theorem step_createObject_eq {s t : ObjectPool} {obsoleted : Object → Bool}
    (h : step cfg s (.createObject obsoleted) = some t) :
    (cfg.reuseObject = true → s.popping = []) ∧ t = (s.createObject cfg obsoleted).2 := by
  simp only [step] at h
  split at h
  · rename_i hlock
    refine ⟨fun hreuse => ?_, (Option.some.inj h).symm⟩
    simpa [hreuse, unlocked] using hlock
  · cases h

theorem step_pushTemp {s t : ObjectPool} {i : Nat} (h : step cfg s (.pushTemp i) = some t) :
    s.popping = [] ∧ ∃ p, s.leaving[i]? = some p ∧ t = s.pushTemp i p := by
  simp only [step] at h
  split at h
  · rename_i hlock
    obtain ⟨p, hi, rfl⟩ := Option.map_eq_some_iff.mp h
    exact ⟨List.isEmpty_iff.mp hlock, p, hi, rfl⟩
  · cases h

theorem step_freeObject_eq {s t : ObjectPool} {num : Nat} {obsoleted : Object → Bool}
    (h : step cfg s (.freeObject num obsoleted) = some t) :
    s.popping = [] ∧ t = s.freeObject cfg num obsoleted := by
  simp only [step] at h
  split at h
  · rename_i hlock
    exact ⟨List.isEmpty_iff.mp hlock, (Option.some.inj h).symm⟩
  · cases h

/-- The objects in `temp_object_can` are in the order in which they were closed. -/
structure Aged (s : ObjectPool) : Prop where
  order : s.tempObjectCan.Pairwise fun t u => t.closedTime ≤ u.closedTime
  closed : ∀ t ∈ s.tempObjectCan, t.leftTime ≤ t.closedTime ∧ t.closedTime ≤ s.now
  left : ∀ p ∈ s.leaving, p.1 ≤ s.now

theorem Aged.ordered {s : ObjectPool} (h : s.Aged) :
    AgeOrder.Ordered (s.isTimeout cfg) s.tempObjectCan := by
  refine h.order.imp fun {t u} hle hold => ?_
  unfold isTimeout at *
  have hold := of_decide_eq_true hold
  exact decide_eq_true (by omega)

/-- An object that may be freed or used again -/
def Reclaimable (cfg : PoolConfig) (s : ObjectPool) (obsoleted : Object → Bool) (t : TempObject) :
    Prop :=
  t.closedTime + cfg.closedSocketMaxDuration ≤ s.now ∧ s.unique t.object = true ∧
    obsoleted t.object = true

theorem reclaimable_iff {s : ObjectPool} {obsoleted : Object → Bool} {t : TempObject} :
    Reclaimable cfg s obsoleted t ↔ (s.isTimeout cfg t && s.idle obsoleted t) = true := by
  simp [Reclaimable, isTimeout, idle]

theorem reuseObject_eq_some {s : ObjectPool} {obsoleted : Object → Bool} {t : TempObject}
    {rest : List TempObject} (h : s.Aged) (hreuse : s.reuseObject cfg obsoleted = some (t, rest)) :
    ∃ front back, s.tempObjectCan = front ++ t :: back ∧ rest = front ++ back ∧
      Reclaimable cfg s obsoleted t ∧ ∀ u ∈ front, ¬ Reclaimable cfg s obsoleted u := by
  unfold reuseObject at hreuse
  split at hreuse
  · rw [AgeOrder.popWhile_eq h.ordered] at hreuse
    obtain ⟨front, back, hsplit, hrest, ht, hfront⟩ := AgeOrder.popAll_eq_some hreuse
    refine ⟨front, back, hsplit, hrest, reclaimable_iff.mpr ht, fun u hu hrec => ?_⟩
    cases (hfront u hu).symm.trans (reclaimable_iff.mp hrec)
  · cases hreuse

end Functions

/-! ## Invariants -/

section Invariants

variable {cfg : PoolConfig} {s t : ObjectPool}

/-- An object that is added to `object_can` is not on its way to
`temp_object_can`, or in there; `cur_id` has not come round; and nobody reads
`temp_object_can` while `closed_object_pop` is about to erase. -/
def Fresh (s : ObjectPool) : Action → Prop
  | .addObject o => (∀ p ∈ s.leaving, p.2 ≠ o) ∧ ∀ t ∈ s.tempObjectCan, t.object ≠ o
  | .createObject _ => s.created < 2 ^ 64
  | .closedObjectFind _ => s.popping = []
  | .closedObjectPop _ => s.popping = []
  | .closedObjectAt _ => s.popping = []
  | _ => True

instance (s : ObjectPool) (a : Action) : Decidable (Fresh s a) := by
  unfold Fresh
  split <;> infer_instance

theorem nextId_eq (h : s.created < 2 ^ 64) : s.nextId = s.created := Nat.mod_eq_of_lt h

/-- At most one call of `closed_object_pop` is about to erase, and what it erases
is there. -/
structure Locked (s : ObjectPool) : Prop where
  single : s.popping.length ≤ 1
  present : ∀ u ∈ s.popping, u ∈ s.tempObjectCan
  sound : s.erasedTwice = false

/-- Whoever refers to an object means the same, by its address as by its id, and
it has not been freed. -/
structure Named (s : ObjectPool) : Prop where
  known : ∀ r ∈ s.refs, r.address < s.nextAddress ∧ r.id < s.created ∧ r.address ∉ s.freed
  same : ∀ r ∈ s.refs, ∀ r' ∈ s.refs, r.address = r'.address ∨ r.id = r'.id → r = r'
  freed : s.freed.Nodup ∧ ∀ a ∈ s.freed, a < s.nextAddress

/-- Each object is in one place, once. -/
structure Placed (cfg : PoolConfig) (s : ObjectPool) : Prop where
  once : (s.places.map Object.address).Nodup
  room : s.objectCan.length ≤ cfg.maxObjectNum

theorem mem_refs_of_held {o : Object} (h : o ∈ s.held) : o ∈ s.refs := List.mem_append_right _ h

theorem mem_refs_of_temp {u : TempObject} (h : u ∈ s.tempObjectCan) : u.object ∈ s.refs :=
  List.mem_append_left _ (List.mem_append_right _
    (List.mem_append_right _ (List.mem_map_of_mem h)))

/-- One more reference to an object that is known -/
theorem mem_refs_again {o : Object} (ho : o ∈ s.refs) :
    ∀ r ∈ s.places ++ (s.held ++ [o]), r ∈ s.refs := by
  intro r hr
  obtain hplace | hheld := List.mem_append.mp hr
  · exact List.mem_append_left _ hplace
  · obtain hold | hnew := List.mem_append.mp hheld
    · exact mem_refs_of_held hold
    · rw [List.mem_singleton.mp hnew]
      exact ho

theorem mem_refs_of_objectCan {o : Object} (h : o ∈ s.objectCan) : o ∈ s.refs :=
  List.mem_append_left _ (List.mem_append_left _ h)

/-- A reference that is unique is gone with its place. -/
theorem address_ne_of_unique {o : Object} {l : List Object} (hperm : s.refs.Perm (o :: l))
    (hunique : s.unique o = true) : ∀ r ∈ l, r.address ≠ o.address := by
  intro r hr heq
  have hone := of_decide_eq_true hunique
  rw [hperm.countP_eq,
    List.countP_cons_of_pos (p := fun r : Object => r.address = o.address)
      (decide_eq_true rfl)] at hone
  have hpos : 0 < l.countP fun r => r.address = o.address :=
    List.countP_pos_iff.mpr ⟨r, hr, decide_eq_true heq⟩
  omega

theorem Named.sub (h : s.Named) (hrefs : ∀ r ∈ t.refs, r ∈ s.refs)
    (hid : t.created = s.created) (haddress : t.nextAddress = s.nextAddress)
    (hfreed : t.freed = s.freed) : t.Named := by
  refine ⟨fun r hr => ?_, fun r hr r' hr' => h.same r (hrefs r hr) r' (hrefs r' hr'), ?_⟩
  · rw [hid, haddress, hfreed]
    exact h.known r (hrefs r hr)
  · rw [haddress, hfreed]
    exact h.freed

theorem Placed.sub (h : s.Placed cfg) (gone : List Object)
    (hplaces : (t.places ++ gone).Perm s.places)
    (hroom : t.objectCan.length ≤ s.objectCan.length) : t.Placed cfg := by
  refine ⟨?_, Nat.le_trans hroom h.room⟩
  have hall := ((hplaces.map Object.address).nodup_iff).mpr h.once
  rw [List.map_append] at hall
  exact (List.nodup_append.mp hall).1

/-- A new object, or an old one that nobody has any more, is given a new id. -/
theorem Named.create (h : s.Named) {o : Object} (hrefs : ∀ r ∈ t.refs, r = o ∨
    r ∈ s.refs ∧ r.address ≠ o.address) (hid : o.id = s.created)
    (hnext : t.created = s.created + 1) (haddress : o.address < t.nextAddress)
    (hmono : s.nextAddress ≤ t.nextAddress)
    (hfreed : t.freed = s.freed) (hnew : o.address ∉ s.freed) : t.Named := by
  refine ⟨fun r hr => ?_, fun r hr r' hr' hsame => ?_, ?_⟩
  · rw [hnext, hfreed]
    obtain rfl | ⟨hold, _⟩ := hrefs r hr
    · exact ⟨haddress, by omega, hnew⟩
    · obtain ⟨hlt, hidlt, hnot⟩ := h.known r hold
      exact ⟨by omega, by omega, hnot⟩
  · obtain rfl | ⟨hold, hne⟩ := hrefs r hr
    · obtain rfl | ⟨hold', hne'⟩ := hrefs r' hr'
      · rfl
      · have hlt := (h.known r' hold').2.1
        obtain heq | heq := hsame
        · exact absurd heq.symm hne'
        · omega
    · obtain rfl | ⟨hold', hne'⟩ := hrefs r' hr'
      · have hlt := (h.known r hold).2.1
        obtain heq | heq := hsame
        · exact absurd heq hne
        · omega
      · exact h.same r hold r' hold' hsame
  · rw [hfreed]
    exact ⟨h.freed.1, fun a ha => Nat.lt_of_lt_of_le (h.freed.2 a ha) hmono⟩

/-- What leaves `temp_object_can` leaves nothing else behind. -/
theorem places_perm_of_temp {front back : List TempObject} {u : TempObject}
    (hsplit : s.tempObjectCan = front ++ u :: back) (hcan : t.objectCan = s.objectCan)
    (hleaving : t.leaving = s.leaving) (htemp : t.tempObjectCan = front ++ back) :
    s.places.Perm (u.object :: t.places) := by
  refine List.perm_iff_count.mpr fun x => ?_
  simp only [places, hsplit, hcan, hleaving, htemp, List.map_append, List.map_cons,
    List.count_append, List.count_cons]
  omega

theorem step_createObject (hnamed : s.Named) (hplaced : s.Placed cfg) (haged : s.Aged)
    (hids : s.created < 2 ^ 64) (obsoleted : Object → Bool) :
    (s.createObject cfg obsoleted).2.Named ∧ (s.createObject cfg obsoleted).2.Placed cfg := by
  have hnext := nextId_eq hids
  unfold createObject
  split
  · rename_i u rest hreuse
    obtain ⟨front, back, hsplit, rfl, hrec, _⟩ := reuseObject_eq_some haged hreuse
    have hplaces : ∀ held created, s.places.Perm (u.object ::
        { s with created, tempObjectCan := front ++ back, held := held }.places) :=
      fun _ _ => places_perm_of_temp hsplit rfl rfl rfl
    have hmem : u ∈ s.tempObjectCan := by
      rw [hsplit]
      exact List.mem_append_right _ (List.mem_cons_self ..)
    obtain ⟨hlt, _, hnot⟩ := hnamed.known _ (mem_refs_of_temp hmem)
    constructor
    · refine hnamed.create (o := ⟨u.object.address, s.nextId⟩) (fun r hr => ?_) hnext rfl hlt
        (Nat.le_refl _) rfl hnot
      have hgone := address_ne_of_unique (l := _ ++ s.held)
        (List.Perm.append_right s.held (hplaces (s.held ++ [⟨u.object.address, s.nextId⟩])
          (s.created + 1))) hrec.2.1
      simp only [refs, ← List.append_assoc, List.mem_append, List.mem_singleton] at hr
      obtain hold | rfl := hr
      · have hin := List.mem_append.mpr hold
        refine .inr ⟨?_, hgone r hin⟩
        exact (List.Perm.append_right s.held (hplaces _ _)).mem_iff.mpr
          (List.mem_cons_of_mem _ hin)
      · exact .inl rfl
    · exact hplaced.sub [u.object]
        (List.perm_append_comm.trans (hplaces _ _).symm) (Nat.le_refl _)
  · constructor
    · refine hnamed.create (o := ⟨s.nextAddress, s.nextId⟩) (fun r hr => ?_) hnext rfl
        (Nat.lt_succ_self _) (Nat.le_succ _) rfl (fun hmem => ?_)
      · simp only [refs, ← List.append_assoc, List.mem_append, List.mem_singleton] at hr
        obtain hold | rfl := hr
        · have hin : r ∈ s.refs := List.mem_append.mpr hold
          exact .inr ⟨hin, Nat.ne_of_lt (hnamed.known r hin).1⟩
        · exact .inl rfl
      · exact absurd (hnamed.freed.2 _ hmem) (Nat.lt_irrefl _)
    · exact hplaced.sub [] (by rw [List.append_nil]; exact List.Perm.refl _)
        (Nat.le_refl _)

theorem step_addObject (hnamed : s.Named) (hplaced : s.Placed cfg) {o : Object} (ho : o ∈ s.held)
    (hfresh : Fresh s (.addObject o)) :
    (s.addObject cfg o).2.Named ∧ (s.addObject cfg o).2.Placed cfg := by
  obtain hsame | ⟨hroom, hnew, hadd⟩ := addObject_cases cfg s o
  · rw [hsame]
    exact ⟨hnamed, hplaced⟩
  · rw [hadd]
    constructor
    · refine hnamed.sub (fun r hr => ?_) rfl rfl rfl
      simp only [refs, places, List.mem_append, List.mem_singleton] at hr
      obtain ((hcan | rfl) | hrest) | hheld := hr
      · exact mem_refs_of_objectCan hcan
      · exact mem_refs_of_held ho
      · exact List.mem_append_left _ (List.mem_append_right _ (List.mem_append.mpr hrest))
      · exact mem_refs_of_held hheld
    · have hnot : ∀ r ∈ s.places, r.address ≠ o.address := by
        intro r hr heq
        have hro := hnamed.same r (List.mem_append_left _ hr) o (mem_refs_of_held ho) (.inl heq)
        subst hro
        simp only [places, List.mem_append, List.mem_map] at hr
        obtain hcan | ⟨p, hp, hpr⟩ | ⟨u, hu, hur⟩ := hr
        · exact hnew r hcan rfl
        · exact hfresh.1 p hp hpr
        · exact hfresh.2 u hu hur
      have hperm : { s with objectCan := s.objectCan ++ [o] }.places.Perm (o :: s.places) := by
        refine List.perm_iff_count.mpr fun x => ?_
        simp only [places, List.count_append, List.count_cons, List.count_nil]
        omega
      refine ⟨((hperm.map Object.address).nodup_iff).mpr ?_, ?_⟩
      · refine List.nodup_cons.mpr ⟨fun hmem => ?_, hplaced.once⟩
        obtain ⟨r, hr, heq⟩ := List.mem_map.mp hmem
        exact hnot r hr heq
      · rw [List.length_append, List.length_singleton]
        exact hroom

theorem delObject_places (hnamed : s.Named) {o : Object} (ho : o ∈ s.held) :
    (s.delObject o).2.places.Perm s.places := by
  obtain ⟨_, hdel⟩ | ⟨r, front, back, hsplit, hid, hdel⟩ := delObject_cases s o
  · rw [hdel]
  · have hmem : r ∈ s.objectCan := by
      rw [hsplit]
      exact List.mem_append_right _ (List.mem_cons_self ..)
    have hro := hnamed.same r (mem_refs_of_objectCan hmem) o (mem_refs_of_held ho) (.inr hid)
    subst hro
    rw [hdel]
    refine List.perm_iff_count.mpr fun x => ?_
    simp only [places, hsplit, List.map_append, List.map_cons, List.map_nil, List.count_append,
      List.count_cons, List.count_nil]
    omega

/-- Objects change their places, and nothing else changes. -/
theorem moved (hnamed : s.Named) (hplaced : s.Placed cfg) (hperm : t.places.Perm s.places)
    (hheld : t.held = s.held) (hid : t.created = s.created)
    (haddress : t.nextAddress = s.nextAddress) (hfreed : t.freed = s.freed)
    (hroom : t.objectCan.length ≤ s.objectCan.length) :
    t.Named ∧ t.Placed cfg := by
  constructor
  · refine hnamed.sub (fun x hx => ?_) hid haddress hfreed
    unfold refs at *
    rw [hheld] at hx
    exact (hperm.append_right s.held).mem_iff.mp hx
  · exact hplaced.sub [] (by rw [List.append_nil]; exact hperm) hroom

theorem step_delObject (hnamed : s.Named) (hplaced : s.Placed cfg) {o : Object} (ho : o ∈ s.held) :
    (s.delObject o).2.Named ∧ (s.delObject o).2.Placed cfg := by
  have hperm := delObject_places hnamed ho
  obtain ⟨_, hdel⟩ | ⟨r, front, back, hsplit, _, hdel⟩ := delObject_cases s o
  · rw [hdel]
    exact ⟨hnamed, hplaced⟩
  · rw [hdel] at hperm ⊢
    refine moved hnamed hplaced hperm rfl rfl rfl rfl ?_
    simp only [hsplit, List.length_append, List.length_cons]
    omega

theorem clearAllClosedObject_places (s : ObjectPool) (obsoleted : Object → Bool) :
    (s.clearAllClosedObject obsoleted).places.Perm s.places := by
  have hpart := List.filter_append_perm (fun o => s.unique o && obsoleted o) s.objectCan
  have hsnd : ∀ l : List Object, (l.map fun o => (s.now, o)).map Prod.snd = l := by
    intro l
    rw [List.map_map]
    exact List.map_id l
  refine List.perm_iff_count.mpr fun x => ?_
  have hcount := hpart.count_eq x
  simp only [places, clearAllClosedObject, List.map_append, hsnd, List.count_append] at hcount ⊢
  omega

theorem pushTemp_places {i : Nat} {p : Nat × Object} (hi : s.leaving[i]? = some p) :
    (s.pushTemp i p).places.Perm s.places := by
  obtain ⟨hlt, hget⟩ := List.getElem?_eq_some_iff.mp hi
  have hsplit : s.leaving = s.leaving.take i ++ p :: s.leaving.drop (i + 1) := by
    rw [← hget, List.getElem_cons_drop, List.take_append_drop]
  refine List.perm_iff_count.mpr fun x => ?_
  have hcount := congrArg (fun l => (l.map Prod.snd).count x) hsplit
  simp only [places, pushTemp, List.eraseIdx_eq_take_drop_succ, List.map_append, List.map_cons,
    List.map_nil, List.count_append, List.count_cons, List.count_nil] at hcount ⊢
  omega

/-- What `free_object` takes are objects that may be freed, and it leaves the
others as they were. -/
theorem freeObject_spec (cfg : PoolConfig) (haged : s.Aged) (num : Nat)
    (obsoleted : Object → Bool) :
    ∃ taken, (taken ++ (s.freeObject cfg num obsoleted).tempObjectCan).Perm s.tempObjectCan ∧
      (s.freeObject cfg num obsoleted).tempObjectCan.Sublist s.tempObjectCan ∧
      (∀ u ∈ taken, Reclaimable cfg s obsoleted u) ∧
      (s.freeObject cfg num obsoleted).freed = s.freed ++ taken.map (·.object.address) := by
  obtain ⟨hperm, hsub, htaken⟩ := AgeOrder.takeAll_spec (s.isTimeout cfg) (s.idle obsoleted) num
    s.tempObjectCan
  unfold freeObject
  rw [AgeOrder.takeWhile_eq haged.ordered]
  exact ⟨_, hperm, hsub, fun u hu => reclaimable_iff.mpr (htaken u hu), rfl⟩

theorem freeObject_places {num : Nat} {obsoleted : Object → Bool} {taken : List TempObject}
    (hperm : (taken ++ (s.freeObject cfg num obsoleted).tempObjectCan).Perm s.tempObjectCan) :
    (taken.map TempObject.object ++ (s.freeObject cfg num obsoleted).places).Perm s.places := by
  refine List.perm_iff_count.mpr fun x => ?_
  have hcount := (hperm.map TempObject.object).count_eq x
  have hcan : (s.freeObject cfg num obsoleted).objectCan = s.objectCan := rfl
  have hleaving : (s.freeObject cfg num obsoleted).leaving = s.leaving := rfl
  simp only [List.map_append, List.count_append] at hcount
  simp only [places, hcan, hleaving, List.count_append]
  omega

theorem step_freeObject (hnamed : s.Named) (hplaced : s.Placed cfg) (haged : s.Aged) (num : Nat)
    (obsoleted : Object → Bool) : (s.freeObject cfg num obsoleted).Named ∧
      (s.freeObject cfg num obsoleted).Placed cfg := by
  obtain ⟨taken, hperm, _, hrec, hfreed⟩ := freeObject_spec cfg haged num obsoleted
  have hplaces := freeObject_places hperm
  have hrefs : (taken.map TempObject.object ++
      (s.freeObject cfg num obsoleted).refs).Perm s.refs := by
    have happend := hplaces.append_right s.held
    rwa [List.append_assoc] at happend
  have hgone : ∀ u ∈ taken, ∀ r ∈ (s.freeObject cfg num obsoleted).refs,
      r.address ≠ u.object.address := by
    intro u hu r hr
    obtain ⟨front, back, rfl⟩ := List.append_of_mem hu
    refine address_ne_of_unique (l := (front.map TempObject.object ++
      back.map TempObject.object) ++ (s.freeObject cfg num obsoleted).refs) (hrefs.symm.trans ?_)
      (hrec u hu).2.1 r (List.mem_append_right _ hr)
    rw [List.map_append, List.map_cons, ← List.cons_append]
    exact List.perm_middle.append_right _
  have htaken : ∀ u ∈ taken, u.object.address < s.nextAddress ∧ u.object.address ∉ s.freed := by
    intro u hu
    have hmem := hrefs.mem_iff.mp (List.mem_append_left _ (List.mem_map_of_mem hu))
    exact ⟨(hnamed.known _ hmem).1, (hnamed.known _ hmem).2.2⟩
  constructor
  · refine ⟨fun r hr => ?_, fun r hr r' hr' => ?_, ?_⟩
    · obtain ⟨hlt, hid, hnot⟩ := hnamed.known r (hrefs.mem_iff.mp (List.mem_append_right _ hr))
      refine ⟨hlt, hid, fun hmem => ?_⟩
      rw [hfreed] at hmem
      obtain hold | hnew := List.mem_append.mp hmem
      · exact hnot hold
      · obtain ⟨u, hu, heq⟩ := List.mem_map.mp hnew
        exact hgone u hu r hr heq.symm
    · exact hnamed.same r (hrefs.mem_iff.mp (List.mem_append_right _ hr)) r'
        (hrefs.mem_iff.mp (List.mem_append_right _ hr'))
    · rw [hfreed]
      refine ⟨List.nodup_append.mpr ⟨hnamed.freed.1, ?_, fun a ha b hb heq => ?_⟩, fun a ha => ?_⟩
      · have honce := ((hplaces.map Object.address).nodup_iff).mpr hplaced.once
        rw [List.map_append, List.map_map] at honce
        exact (List.nodup_append.mp honce).1
      · obtain ⟨u, hu, rfl⟩ := List.mem_map.mp hb
        subst heq
        exact (htaken u hu).2 ha
      · obtain hold | hnew := List.mem_append.mp ha
        · exact hnamed.freed.2 a hold
        · obtain ⟨u, hu, rfl⟩ := List.mem_map.mp hnew
          exact (htaken u hu).1
  · exact hplaced.sub (taken.map TempObject.object)
      (List.perm_append_comm.trans hplaces) (Nat.le_refl _)

theorem step_closedObjectPop (hnamed : s.Named) (hplaced : s.Placed cfg) (id : Nat) :
    (s.closedObjectPop id).2.Named ∧ (s.closedObjectPop id).2.Placed cfg := by
  obtain hsame | ⟨u, hu, hpop⟩ := closedObjectPop_cases s id
  · rw [hsame]
    exact ⟨hnamed, hplaced⟩
  · rw [hpop]
    exact ⟨hnamed.sub (mem_refs_again (mem_refs_of_temp hu)) rfl rfl rfl, hplaced.once,
      hplaced.room⟩

theorem erasePopped_places (s : ObjectPool) (i : Nat) (u : TempObject) :
    ∃ gone, ((s.erasePopped i u).places ++ gone).Perm s.places := by
  obtain ⟨_, htemp⟩ | ⟨front, back, hsplit, herase⟩ := erasePopped_cases s i u
  · refine ⟨[], ?_⟩
    rw [List.append_nil, places, htemp]
    exact List.Perm.refl _
  · have hplaces : s.places.Perm (u.object :: { s with
        popping := s.popping.eraseIdx i, tempObjectCan := front ++ back }.places) :=
      places_perm_of_temp hsplit rfl rfl rfl
    refine ⟨[u.object], List.perm_append_comm.trans ?_⟩
    rw [herase]
    exact hplaces.symm

theorem step_erasePopped (hnamed : s.Named) (hplaced : s.Placed cfg) (i : Nat) (u : TempObject) :
    (s.erasePopped i u).Named ∧ (s.erasePopped i u).Placed cfg := by
  obtain ⟨gone, hplaces⟩ := erasePopped_places s i u
  refine ⟨hnamed.sub (fun r hr => ?_) rfl rfl rfl, hplaced.sub gone hplaces (Nat.le_refl _)⟩
  obtain hplace | hheld := List.mem_append.mp hr
  · exact List.mem_append_left _ (hplaces.mem_iff.mp (List.mem_append_left _ hplace))
  · exact mem_refs_of_held hheld

theorem step_hold (hnamed : s.Named) (hplaced : s.Placed cfg) {o : Option Object}
    (ho : ∀ r, o = some r → r ∈ s.refs) : (s.hold o).Named ∧ (s.hold o).Placed cfg := by
  cases o with
  | none => exact ⟨hnamed, hplaced⟩
  | some r =>
    exact ⟨hnamed.sub (mem_refs_again (ho r rfl)) rfl rfl rfl, hplaced.once, hplaced.room⟩

theorem step_named {a : Action} (hnamed : s.Named) (hplaced : s.Placed cfg) (haged : s.Aged)
    (hfresh : Fresh s a) (hs : step cfg s a = some t) : t.Named ∧ t.Placed cfg := by
  cases a with
  | tick seconds =>
    cases hs
    exact ⟨hnamed.sub (fun _ hr => hr) rfl rfl rfl, hplaced.once, hplaced.room⟩
  | createObject obsoleted =>
    obtain ⟨_, rfl⟩ := step_createObject_eq hs
    exact step_createObject hnamed hplaced haged hfresh obsoleted
  | addObject o =>
    simp only [step] at hs
    split at hs
    · cases hs
      exact step_addObject hnamed hplaced (by assumption) hfresh
    · cases hs
  | delObject o =>
    simp only [step] at hs
    split at hs
    · cases hs
      exact step_delObject hnamed hplaced (by assumption)
    · cases hs
  | clearAllClosedObject obsoleted =>
    cases hs
    exact moved hnamed hplaced (clearAllClosedObject_places s obsoleted) rfl rfl rfl rfl
      (List.length_filter_le _ _)
  | pushTemp i =>
    obtain ⟨_, p, hi, rfl⟩ := step_pushTemp hs
    exact moved hnamed hplaced (pushTemp_places hi) rfl rfl rfl rfl (Nat.le_refl _)
  | freeObject num obsoleted =>
    obtain ⟨_, rfl⟩ := step_freeObject_eq hs
    exact step_freeObject hnamed hplaced haged num obsoleted
  | find id =>
    cases hs
    exact step_hold hnamed hplaced fun r hr => mem_refs_of_objectCan (List.mem_of_find?_eq_some hr)
  | closedObjectFind id =>
    cases hs
    refine step_hold hnamed hplaced fun r hr => ?_
    obtain ⟨u, hu, rfl⟩ := Option.map_eq_some_iff.mp hr
    exact mem_refs_of_temp (List.mem_of_find?_eq_some hu)
  | closedObjectPop id =>
    cases hs
    exact step_closedObjectPop hnamed hplaced id
  | erasePopped i =>
    obtain ⟨u, _, rfl⟩ := Option.map_eq_some_iff.mp hs
    exact step_erasePopped hnamed hplaced i u
  | objectAt index =>
    obtain ⟨o, ho, rfl⟩ := Option.map_eq_some_iff.mp hs
    refine step_hold hnamed hplaced fun r hr => ?_
    cases hr
    exact mem_refs_of_objectCan (List.mem_of_getElem? ho)
  | closedObjectAt index =>
    obtain ⟨u, hu, rfl⟩ := Option.map_eq_some_iff.mp hs
    refine step_hold hnamed hplaced fun r hr => ?_
    cases hr
    exact mem_refs_of_temp (List.mem_of_getElem? hu)
  | copy i =>
    obtain ⟨o, ho, rfl⟩ := Option.map_eq_some_iff.mp hs
    refine step_hold hnamed hplaced fun r hr => ?_
    cases hr
    exact mem_refs_of_held (List.mem_of_getElem? ho)
  | release i =>
    obtain ⟨o, _, rfl⟩ := Option.map_eq_some_iff.mp hs
    refine ⟨hnamed.sub (fun r hr => ?_) rfl rfl rfl, hplaced.once, hplaced.room⟩
    obtain hplace | hheld := List.mem_append.mp hr
    · exact List.mem_append_left _ hplace
    · exact mem_refs_of_held (List.mem_of_mem_eraseIdx hheld)

theorem Aged.sub (h : s.Aged) (hnow : s.now ≤ t.now)
    (htemp : t.tempObjectCan.Sublist s.tempObjectCan)
    (hleaving : ∀ p ∈ t.leaving, p ∈ s.leaving ∨ p.1 = s.now) : t.Aged := by
  refine ⟨h.order.sublist htemp, fun u hu => ?_, fun p hp => ?_⟩
  · obtain ⟨hleft, hclosed⟩ := h.closed u (htemp.subset hu)
    exact ⟨hleft, Nat.le_trans hclosed hnow⟩
  · obtain hold | hnew := hleaving p hp
    · exact Nat.le_trans (h.left p hold) hnow
    · exact hnew ▸ hnow

theorem Aged.same (h : s.Aged) (hnow : t.now = s.now) (htemp : t.tempObjectCan = s.tempObjectCan)
    (hleaving : t.leaving = s.leaving) : t.Aged :=
  h.sub (Nat.le_of_eq hnow.symm) (htemp ▸ List.Sublist.refl _) fun _ hp => .inl (hleaving ▸ hp)

theorem sublist_of_split {front back : List TempObject} {u : TempObject}
    (hsplit : s.tempObjectCan = front ++ u :: back) :
    (front ++ back).Sublist s.tempObjectCan := by
  rw [hsplit]
  exact (List.sublist_cons_self u back).append_left front

theorem hold_aged (h : s.Aged) (o : Option Object) : (s.hold o).Aged := by
  cases o with
  | none => exact h
  | some r => exact h.same rfl rfl rfl

theorem step_aged {a : Action} (h : s.Aged) (hs : step cfg s a = some t) : t.Aged := by
  cases a with
  | tick seconds =>
    cases hs
    exact h.sub (Nat.le_add_right _ _) (List.Sublist.refl _) fun _ hp => .inl hp
  | createObject obsoleted =>
    obtain ⟨_, rfl⟩ := step_createObject_eq hs
    unfold createObject
    split
    · rename_i u rest hreuse
      obtain ⟨front, back, hsplit, rfl, _⟩ := reuseObject_eq_some h hreuse
      exact h.sub (Nat.le_refl _) (sublist_of_split hsplit) fun _ hp => .inl hp
    · exact h.same rfl rfl rfl
  | addObject o =>
    simp only [step] at hs
    split at hs
    · cases hs
      obtain hsame | ⟨_, _, hadd⟩ := addObject_cases cfg s o
      · rw [hsame]
        exact h
      · rw [hadd]
        exact h.same rfl rfl rfl
    · cases hs
  | delObject o =>
    simp only [step] at hs
    split at hs
    · cases hs
      obtain ⟨_, hdel⟩ | ⟨r, front, back, _, _, hdel⟩ := delObject_cases s o
      · rw [hdel]
        exact h
      · rw [hdel]
        refine h.sub (Nat.le_refl _) (List.Sublist.refl _) fun p hp => ?_
        obtain hold | hnew := List.mem_append.mp hp
        · exact .inl hold
        · rw [List.mem_singleton.mp hnew]
          exact .inr rfl
    · cases hs
  | clearAllClosedObject obsoleted =>
    cases hs
    refine h.sub (Nat.le_refl _) (List.Sublist.refl _) fun p hp => ?_
    obtain hold | hnew := List.mem_append.mp hp
    · exact .inl hold
    · obtain ⟨o, _, rfl⟩ := List.mem_map.mp hnew
      exact .inr rfl
  | pushTemp i =>
    obtain ⟨_, p, hi, rfl⟩ := step_pushTemp hs
    have hp := h.left p (List.mem_of_getElem? hi)
    refine ⟨?_, fun u hu => ?_, fun q hq => h.left q (List.mem_of_mem_eraseIdx hq)⟩
    · refine List.pairwise_append.mpr ⟨h.order, List.pairwise_singleton _ _, fun u hu v hv => ?_⟩
      rw [List.mem_singleton.mp hv]
      exact (h.closed u hu).2
    · obtain hold | hnew := List.mem_append.mp hu
      · exact h.closed u hold
      · rw [List.mem_singleton.mp hnew]
        exact ⟨hp, Nat.le_refl _⟩
  | freeObject num obsoleted =>
    obtain ⟨_, rfl⟩ := step_freeObject_eq hs
    obtain ⟨_, _, hsub, _⟩ := freeObject_spec cfg h num obsoleted
    exact h.sub (Nat.le_refl _) hsub fun _ hp => .inl hp
  | find id =>
    cases hs
    exact hold_aged h _
  | closedObjectFind id =>
    cases hs
    exact hold_aged h _
  | closedObjectPop id =>
    cases hs
    obtain hsame | ⟨u, _, hpop⟩ := closedObjectPop_cases s id
    · rw [hsame]
      exact h
    · rw [hpop]
      exact h.same rfl rfl rfl
  | erasePopped i =>
    obtain ⟨u, _, rfl⟩ := Option.map_eq_some_iff.mp hs
    exact h.sub (Nat.le_refl _) List.erase_sublist fun _ hp => .inl hp
  | objectAt | closedObjectAt | copy =>
    obtain ⟨_, _, rfl⟩ := Option.map_eq_some_iff.mp hs
    exact hold_aged h _
  | release i =>
    obtain ⟨_, _, rfl⟩ := Option.map_eq_some_iff.mp hs
    exact h.same rfl rfl rfl

theorem Locked.same (h : s.Locked) (hpopping : t.popping = s.popping)
    (htemp : t.tempObjectCan = s.tempObjectCan) (hsound : t.erasedTwice = s.erasedTwice) :
    t.Locked := by
  refine ⟨?_, ?_, hsound.trans h.sound⟩
  · rw [hpopping]
    exact h.single
  · rw [hpopping, htemp]
    exact h.present

/-- Under the exclusive lock -/
theorem Locked.exclusive (hsound : s.erasedTwice = false) (hnone : t.popping = [])
    (hsame : t.erasedTwice = s.erasedTwice) : t.Locked := by
  refine ⟨?_, ?_, hsame.trans hsound⟩
  · rw [hnone]
    exact Nat.zero_le 1
  · rw [hnone]
    exact fun _ hu => (List.not_mem_nil hu).elim

theorem Locked.hold (h : s.Locked) (o : Option Object) : (s.hold o).Locked := by
  cases o with
  | none => exact h
  | some r => exact h.same rfl rfl rfl

theorem Locked.erasePopped (h : s.Locked) {i : Nat} {u : TempObject}
    (hi : s.popping[i]? = some u) : (s.erasePopped i u).Locked := by
  have hlt := (List.getElem?_eq_some_iff.mp hi).1
  have hless := List.length_eraseIdx_of_lt hlt
  have hsingle := h.single
  have hnone : (s.erasePopped i u).popping = [] := by
    refine List.length_eq_zero_iff.mp ?_
    simp only [ObjectPool.erasePopped]
    omega
  obtain ⟨hnot, _⟩ | ⟨_, _, _, herase⟩ := erasePopped_cases s i u
  · exact absurd (h.present u (List.mem_of_getElem? hi)) hnot
  · exact .exclusive h.sound hnone (by rw [herase])

theorem step_locked {a : Action} (h : s.Locked) (hfresh : Fresh s a)
    (hs : step cfg s a = some t) : t.Locked := by
  cases a with
  | createObject obsoleted =>
    obtain ⟨hlock, rfl⟩ := step_createObject_eq hs
    unfold createObject
    split
    · rename_i u rest hreuse
      have hpopping : s.popping = [] := by
        refine hlock ?_
        unfold reuseObject at hreuse
        split at hreuse
        · assumption
        · cases hreuse
      exact .exclusive h.sound hpopping rfl
    · exact h.same rfl rfl rfl
  | pushTemp i =>
    obtain ⟨hlock, p, _, rfl⟩ := step_pushTemp hs
    exact .exclusive h.sound hlock rfl
  | freeObject num obsoleted =>
    obtain ⟨hlock, rfl⟩ := step_freeObject_eq hs
    exact .exclusive h.sound hlock rfl
  | closedObjectPop id =>
    cases hs
    obtain hsame | ⟨u, hu, hpop⟩ := closedObjectPop_cases s id
    · rw [hsame]
      exact h
    · have hnone : s.popping = [] := hfresh
      rw [hpop]
      refine ⟨?_, fun v hv => ?_, h.sound⟩
      · rw [hnone]
        exact Nat.le_refl 1
      · rw [hnone] at hv
        rw [List.mem_singleton.mp hv]
        exact hu
  | erasePopped i =>
    obtain ⟨u, hi, rfl⟩ := Option.map_eq_some_iff.mp hs
    exact h.erasePopped hi
  | addObject o =>
    simp only [step] at hs
    split at hs
    · cases hs
      obtain hsame | ⟨_, _, hadd⟩ := addObject_cases cfg s o
      · rw [hsame]
        exact h
      · rw [hadd]
        exact h.same rfl rfl rfl
    · cases hs
  | delObject o =>
    simp only [step] at hs
    split at hs
    · cases hs
      obtain ⟨_, hdel⟩ | ⟨r, front, back, _, _, hdel⟩ := delObject_cases s o
      · rw [hdel]
        exact h
      · rw [hdel]
        exact h.same rfl rfl rfl
    · cases hs
  | find | closedObjectFind =>
    cases hs
    exact h.hold _
  | objectAt | closedObjectAt | copy =>
    obtain ⟨_, _, rfl⟩ := Option.map_eq_some_iff.mp hs
    exact h.hold _
  | tick | clearAllClosedObject =>
    cases hs
    exact h.same rfl rfl rfl
  | release i =>
    obtain ⟨_, _, rfl⟩ := Option.map_eq_some_iff.mp hs
    exact h.same rfl rfl rfl

/-- What holds of every pool. -/
structure Sane (cfg : PoolConfig) (s : ObjectPool) : Prop where
  named : s.Named
  placed : s.Placed cfg
  aged : s.Aged
  locked : s.Locked

theorem reach_sane {now : Nat} (h : Reach (step cfg) Fresh (start now) s) : Sane cfg s := by
  refine Reach.invariant (P := Sane cfg) ?_ (fun s a t _ ih hfresh hs => ?_) h
  · have hnone : ∀ {α : Type} {P : α → Prop}, ∀ a ∈ ([] : List α), P a :=
      fun _ ha => (List.not_mem_nil ha).elim
    exact ⟨⟨hnone, hnone, List.nodup_nil, hnone⟩, ⟨List.nodup_nil, Nat.zero_le _⟩,
      ⟨List.Pairwise.nil, hnone, hnone⟩, ⟨Nat.zero_le _, hnone, rfl⟩⟩
  · obtain ⟨hnamed, hplaced⟩ := step_named ih.named ih.placed ih.aged hfresh hs
    exact ⟨hnamed, hplaced, step_aged ih.aged hs, step_locked ih.locked hfresh hs⟩

/-! ## Every pool -/

theorem Sane.ids_nodup (h : Sane cfg s) : (s.places.map Object.id).Nodup := by
  refine List.pairwise_map.mpr ((List.pairwise_map.mp h.placed.once).imp_of_mem ?_)
  intro o o' ho ho' hne hid
  have hsame := h.named.same o (List.mem_append_left _ ho) o' (List.mem_append_left _ ho')
    (.inr hid)
  exact hne (congrArg Object.address hsame)

/-- **Each object once**: however the calls interleave, an object is in
`object_can` or in `temp_object_can` or between them, once and in one of them,
no two have the same id, and there is a limit to those in `object_can`. Nothing
is erased that is not there. -/
theorem pool_once (cfg : PoolConfig) (now : Nat) (s : ObjectPool)
    (h : Reach (step cfg) Fresh (start now) s) :
    (s.places.map Object.address).Nodup ∧ (s.places.map Object.id).Nodup ∧
      s.objectCan.length ≤ cfg.maxObjectNum ∧ s.erasedTwice = false :=
  ⟨(reach_sane h).placed.once, (reach_sane h).ids_nodup, (reach_sane h).placed.room,
    (reach_sane h).locked.sound⟩

/-- Room for two: the third object is refused, until the first one is taken out. -/
theorem pool_once_full : ∃ s : ObjectPool, s.objectCan = [⟨1, 1⟩, ⟨2, 2⟩] ∧
    s.leaving = [(0, ⟨0, 0⟩)] ∧ (s.places.map Object.address).Nodup ∧ s.objectCan.length ≤ 2 := by
  let cfg : PoolConfig := ⟨2, 5, true⟩
  let all : Object → Bool := fun _ => true
  let acts : List Action := [.createObject all, .addObject ⟨0, 0⟩, .createObject all,
    .addObject ⟨1, 1⟩, .createObject all, .addObject ⟨2, 2⟩, .delObject ⟨0, 0⟩, .addObject ⟨2, 2⟩]
  have hrun : (exec (guarded (step cfg) Fresh) (start 0) acts).map
      (fun s => (s.objectCan, s.leaving)) = some ([⟨1, 1⟩, ⟨2, 2⟩], [(0, ⟨0, 0⟩)]) := by
    decide +kernel
  obtain ⟨s, hs, hseen⟩ := Option.map_eq_some_iff.mp hrun
  simp only [Prod.mk.injEq] at hseen
  obtain ⟨haddress, _, hroom, _⟩ := pool_once cfg 0 s (Reach.of_exec_guarded acts hs)
  exact ⟨s, hseen.1, hseen.2, haddress, hroom⟩

/-- Two calls of `closed_object_pop` for one id at a time erase its node twice. -/
example : (exec (step ⟨2, 5, true⟩) (start 0) [.createObject fun _ => true, .addObject ⟨0, 0⟩,
    .delObject ⟨0, 0⟩, .pushTemp 0, .closedObjectPop 0, .closedObjectPop 0, .erasePopped 0,
    .erasePopped 0]).map (·.erasedTwice) = some true := by
  decide

theorem exists_find {α : Type} {l : List α} {p : α → Bool} {a : α} (hmem : a ∈ l)
    (ha : p a = true) : ∃ b ∈ l, p b = true ∧ l.find? p = some b := by
  obtain ⟨b, hb⟩ := Option.isSome_iff_exists.mp (List.find?_isSome.mpr ⟨a, hmem, ha⟩)
  exact ⟨b, List.mem_of_find?_eq_some hb, List.find?_some hb, hb⟩

/-- **An id is an object**: what is looked up, or taken out, by its id is the
object that is meant, and is found where it is. -/
theorem pool_lookup (cfg : PoolConfig) (now : Nat) (s : ObjectPool)
    (h : Reach (step cfg) Fresh (start now) s) (o : Object) (ho : o ∈ s.refs) :
    (s.find o.id = some o ↔ o ∈ s.objectCan) ∧
      (s.closedObjectFind o.id = some o ↔ ∃ u ∈ s.tempObjectCan, u.object = o) ∧
      s.delObject o = (if o ∈ s.objectCan then (true, { s with
        objectCan := s.objectCan.erase o, leaving := s.leaving ++ [(s.now, o)] })
        else (false, s)) := by
  have hnamed := (reach_sane h).named
  have hcan : ∀ r ∈ s.objectCan, r.id = o.id → r = o := fun r hr hid =>
    hnamed.same r (mem_refs_of_objectCan hr) o ho (.inr hid)
  have htemp : ∀ u ∈ s.tempObjectCan, u.object.id = o.id → u.object = o := fun u hu hid =>
    hnamed.same u.object (mem_refs_of_temp hu) o ho (.inr hid)
  refine ⟨⟨fun hfind => List.mem_of_find?_eq_some hfind, fun hmem => ?_⟩,
    ⟨fun hfind => ?_, fun ⟨u, hu, huo⟩ => ?_⟩, ?_⟩
  · obtain ⟨r, hr, hid, hfind⟩ := exists_find (p := fun r : Object => r.id = o.id) hmem
      (decide_eq_true rfl)
    rw [find, hfind, hcan r hr (of_decide_eq_true hid)]
  · obtain ⟨u, hu, huo⟩ := Option.map_eq_some_iff.mp hfind
    exact ⟨u, List.mem_of_find?_eq_some hu, huo⟩
  · obtain ⟨v, hv, hid, hfind⟩ := exists_find (p := fun v : TempObject => o.id = v.object.id) hu
      (decide_eq_true (by rw [huo]))
    rw [closedObjectFind, hfind, Option.map_some, htemp v hv (of_decide_eq_true hid).symm]
  · obtain ⟨hnone, hdel⟩ | ⟨r, front, back, hsplit, hid, hdel⟩ := delObject_cases s o
    · rw [hdel, if_neg fun hmem => hnone o hmem rfl]
    · have hmem : r ∈ s.objectCan := by
        rw [hsplit]
        exact List.mem_append_right _ (List.mem_cons_self ..)
      have hro := hcan r hmem hid
      subst hro
      have hfront : r ∉ front := by
        intro hin
        have honce := (reach_sane h).placed.once
        rw [places, hsplit, List.map_append, List.map_append] at honce
        exact (List.nodup_append.mp (List.nodup_append.mp honce).1).2.2 r.address
          (List.mem_map_of_mem hin) r.address (List.mem_map_of_mem (List.mem_cons_self ..)) rfl
      rw [hdel, if_pos hmem, hsplit, List.erase_append_right _ hfront, List.erase_cons_head]

/-- An object that is being taken out a second time -/
theorem pool_lookup_again : ∃ s : ObjectPool, s.tempObjectCan.length = 1 ∧
    s.closedObjectFind 0 = some ⟨0, 0⟩ ∧ s.delObject ⟨0, 0⟩ = (false, s) := by
  let cfg : PoolConfig := ⟨2, 5, true⟩
  let all : Object → Bool := fun _ => true
  let acts : List Action := [.createObject all, .addObject ⟨0, 0⟩, .createObject all,
    .addObject ⟨1, 1⟩, .delObject ⟨0, 0⟩, .pushTemp 0]
  have hrun : (exec (guarded (step cfg) Fresh) (start 0) acts).map
      (fun s => (s.objectCan, s.tempObjectCan)) =
      some ([⟨1, 1⟩], [⟨0, ⟨0, 0⟩, 0⟩]) := by
    decide +kernel
  obtain ⟨s, hs, hseen⟩ := Option.map_eq_some_iff.mp hrun
  simp only [Prod.mk.injEq] at hseen
  obtain ⟨hcan, htemp⟩ := hseen
  have hmem : (⟨0, ⟨0, 0⟩, 0⟩ : TempObject) ∈ s.tempObjectCan := by
    rw [htemp]
    exact List.mem_cons_self ..
  obtain ⟨_, hfind, hdel⟩ := pool_lookup cfg 0 s (Reach.of_exec_guarded acts hs) ⟨0, 0⟩
    (mem_refs_of_temp hmem)
  rw [hcan] at hdel
  exact ⟨s, by rw [htemp]; rfl, hfind.mpr ⟨_, hmem, rfl⟩, hdel⟩

/-- **As if over the whole list**: `temp_object_can` is in the order in which its
objects were closed, and the loops stop at the first one that is too young; still
`create_object` uses an object again whenever there is one that
may be, of these the one that was closed first; and `free_object` frees as many
as it is to, or as there are, and with no limit all of them. -/
theorem pool_by_age (cfg : PoolConfig) (now : Nat) (s : ObjectPool)
    (h : Reach (step cfg) Fresh (start now) s) (obsoleted : Object → Bool) :
    (s.tempObjectCan.Pairwise fun u v => u.closedTime ≤ v.closedTime) ∧
      (cfg.reuseObject = true → (∃ u ∈ s.tempObjectCan, Reclaimable cfg s obsoleted u) →
      ∃ u rest, s.reuseObject cfg obsoleted = some (u, rest) ∧ Reclaimable cfg s obsoleted u ∧
        ∀ v ∈ s.tempObjectCan, Reclaimable cfg s obsoleted v → u.closedTime ≤ v.closedTime) ∧
      ∀ num, (s.freeObject cfg num obsoleted).freed.length = s.freed.length +
          min num (s.tempObjectCan.countP fun u => s.isTimeout cfg u && s.idle obsoleted u) ∧
        (s.tempObjectCan.length ≤ num → ∀ u, u ∈ (s.freeObject cfg num obsoleted).tempObjectCan ↔
          u ∈ s.tempObjectCan ∧ ¬ Reclaimable cfg s obsoleted u) := by
  have haged := (reach_sane h).aged
  refine ⟨haged.order, fun hreuse ⟨w, hw, hrec⟩ => ?_, fun num => ⟨?_, fun hall u => ?_⟩⟩
  · cases hpop : s.reuseObject cfg obsoleted with
    | none =>
      unfold reuseObject at hpop
      rw [if_pos hreuse, AgeOrder.popWhile_eq haged.ordered] at hpop
      cases (AgeOrder.popAll_eq_none hpop w hw).symm.trans (reclaimable_iff.mp hrec)
    | some pair =>
      obtain ⟨u, rest⟩ := pair
      obtain ⟨front, back, hsplit, _, hu, hfront⟩ := reuseObject_eq_some haged hpop
      refine ⟨u, rest, rfl, hu, fun v hv hvrec => ?_⟩
      have horder := haged.order
      rw [hsplit] at hv horder
      obtain hin | hin := List.mem_append.mp hv
      · exact absurd hvrec (hfront v hin)
      · obtain rfl | hback := List.mem_cons.mp hin
        · exact Nat.le_refl _
        · exact List.rel_of_pairwise_cons (List.pairwise_append.mp horder).2.1 hback
  · unfold freeObject
    rw [AgeOrder.takeWhile_eq haged.ordered]
    simp only [List.length_append, List.length_map, AgeOrder.length_takeAll]
  · unfold freeObject
    rw [AgeOrder.takeWhile_eq haged.ordered, reclaimable_iff]
    simp only [AgeOrder.takeAll_of_length_le hall, List.mem_filter, Bool.not_eq_true',
      Bool.not_eq_true]

/-- The first object is still held, the second one is not, the third one is young. -/
theorem pool_by_age_second : ∃ (cfg : PoolConfig) (s : ObjectPool) (u : TempObject)
    (rest : List TempObject), s.tempObjectCan.length = 3 ∧
    s.reuseObject cfg (fun _ => true) = some (u, rest) ∧
    ∀ v ∈ s.tempObjectCan, Reclaimable cfg s (fun _ => true) v → u.closedTime ≤ v.closedTime := by
  let cfg : PoolConfig := ⟨9, 5, true⟩
  let all : Object → Bool := fun _ => true
  let acts : List Action := [.createObject all, .createObject all, .createObject all,
    .addObject ⟨0, 0⟩, .addObject ⟨1, 1⟩, .addObject ⟨2, 2⟩, .delObject ⟨0, 0⟩, .pushTemp 0,
    .tick 1, .delObject ⟨1, 1⟩, .pushTemp 0, .tick 4, .delObject ⟨2, 2⟩, .pushTemp 0, .release 1,
    .tick 1]
  have hrun : (exec (guarded (step cfg) Fresh) (start 0) acts).map (fun s =>
      (s.tempObjectCan, s.isTimeout cfg ⟨1, ⟨1, 1⟩, 1⟩ && s.idle all ⟨1, ⟨1, 1⟩, 1⟩)) =
      some ([⟨0, ⟨0, 0⟩, 0⟩, ⟨1, ⟨1, 1⟩, 1⟩, ⟨5, ⟨2, 2⟩, 5⟩], true) := by
    decide +kernel
  obtain ⟨s, hs, hseen⟩ := Option.map_eq_some_iff.mp hrun
  simp only [Prod.mk.injEq] at hseen
  obtain ⟨htemp, hrec⟩ := hseen
  obtain ⟨u, rest, hreuse, _, hfirst⟩ := (pool_by_age cfg 0 s (Reach.of_exec_guarded acts hs)
    all).2.1 rfl ⟨⟨1, ⟨1, 1⟩, 1⟩, by simp [htemp], reclaimable_iff.mpr hrec⟩
  exact ⟨cfg, s, u, rest, by rw [htemp]; rfl, hreuse, hfirst⟩

theorem createObject_refs (cfg : PoolConfig) (haged : s.Aged) (obsoleted : Object → Bool) :
    (s.createObject cfg obsoleted).1.id = s.nextId ∧
      (∃ old, (s.createObject cfg obsoleted).2.refs =
        old ++ [(s.createObject cfg obsoleted).1] ∧ ∀ r ∈ old, r ∈ s.refs) ∧
      ((s.createObject cfg obsoleted).1.address = s.nextAddress ∨ ∃ u ∈ s.tempObjectCan,
        u.object.address = (s.createObject cfg obsoleted).1.address ∧
          Reclaimable cfg s obsoleted u) := by
  unfold createObject
  split
  · rename_i u rest hreuse
    obtain ⟨front, back, hsplit, rfl, hrec, _⟩ := reuseObject_eq_some haged hreuse
    refine ⟨rfl, ⟨_, (List.append_assoc ..).symm, fun r hr => ?_⟩, .inr ⟨u, ?_, rfl, hrec⟩⟩
    · have hplaces : s.places.Perm (u.object :: { s with
          created := s.created + 1, tempObjectCan := front ++ back,
          held := s.held ++ [(⟨u.object.address, s.nextId⟩ : Object)] }.places) :=
        places_perm_of_temp hsplit rfl rfl rfl
      exact (hplaces.append_right s.held).mem_iff.mpr (List.mem_cons_of_mem _ hr)
    · rw [hsplit]
      exact List.mem_append_right _ (List.mem_cons_self ..)
  · exact ⟨rfl, ⟨_, (List.append_assoc ..).symm, fun r hr => hr⟩, .inl rfl⟩

/-- **Nobody's any more**: no object is freed twice or while somebody refers to
it. Until `cur_id` comes round, what `create_object` returns nobody else refers
to, and its id is new; and if the object is not, then it left `object_can` the
set time ago at least, like any that is freed. -/
theorem pool_reclaims (cfg : PoolConfig) (now : Nat) (s : ObjectPool)
    (h : Reach (step cfg) Fresh (start now) s) (obsoleted : Object → Bool) :
    s.freed.Nodup ∧ (∀ r ∈ s.refs, r.address ∉ s.freed) ∧
      (s.created < 2 ^ 64 → (∀ r ∈ s.refs, r.id < (s.createObject cfg obsoleted).1.id) ∧
        (s.createObject cfg obsoleted).2.unique (s.createObject cfg obsoleted).1 = true) ∧
      ((s.createObject cfg obsoleted).1.address = s.nextAddress ∨ ∃ u ∈ s.tempObjectCan,
        u.object.address = (s.createObject cfg obsoleted).1.address ∧
          u.leftTime + cfg.closedSocketMaxDuration ≤ s.now) ∧
      ∀ num, ∀ a ∈ (s.freeObject cfg num obsoleted).freed, a ∈ s.freed ∨
        ∃ u ∈ s.tempObjectCan, u.object.address = a ∧
          u.leftTime + cfg.closedSocketMaxDuration ≤ s.now := by
  obtain ⟨hnamed, hplaced, haged, _⟩ := reach_sane h
  obtain ⟨hid, ⟨old, hrefs, hold⟩, hwhere⟩ := createObject_refs cfg haged obsoleted
  have hlong : ∀ {u}, u ∈ s.tempObjectCan → Reclaimable cfg s obsoleted u →
      u.leftTime + cfg.closedSocketMaxDuration ≤ s.now := by
    intro u hu hrec
    have hleft := (haged.closed u hu).1
    have htime := hrec.1
    omega
  refine ⟨hnamed.freed.1, fun r hr => (hnamed.known r hr).2.2,
    fun hids => ⟨fun r hr => ?_, ?_⟩, hwhere.imp id ?_, fun num a ha => ?_⟩
  · rw [hid, nextId_eq hids]
    exact (hnamed.known r hr).2.1
  · have hnone : old.countP (fun r =>
        r.address = (s.createObject cfg obsoleted).1.address) = 0 := by
      refine List.countP_eq_zero.mpr fun r hr heq => ?_
      have hsame := (step_createObject hnamed hplaced haged hids obsoleted).1.same r
        (by rw [hrefs]; exact List.mem_append_left _ hr) (s.createObject cfg obsoleted).1
        (by rw [hrefs]; exact List.mem_append_right _ (List.mem_cons_self ..))
        (.inl (of_decide_eq_true heq))
      have hlt := (hnamed.known r (hold r hr)).2.1
      rw [hsame, hid, nextId_eq hids] at hlt
      exact Nat.lt_irrefl _ hlt
    unfold unique
    rw [hrefs, List.countP_append, hnone]
    simp
  · rintro ⟨u, hu, haddress, hrec⟩
    exact ⟨u, hu, haddress, hlong hu hrec⟩
  · obtain ⟨taken, hperm, _, hrec, hfreed⟩ := freeObject_spec cfg haged num obsoleted
    rw [hfreed] at ha
    obtain hbefore | hnow := List.mem_append.mp ha
    · exact .inl hbefore
    · obtain ⟨u, hu, rfl⟩ := List.mem_map.mp hnow
      have hmem := hperm.mem_iff.mp (List.mem_append_left _ hu)
      exact .inr ⟨u, hmem, rfl, hlong hmem (hrec u hu)⟩

/-- An object is closed, and used again five seconds later. -/
theorem pool_reclaims_again : ∃ (cfg : PoolConfig) (s : ObjectPool),
    (s.createObject cfg fun _ => true).1 = ⟨0, 1⟩ ∧
    (s.createObject cfg fun _ => true).2.unique ⟨0, 1⟩ = true := by
  let cfg : PoolConfig := ⟨9, 5, true⟩
  let all : Object → Bool := fun _ => true
  let acts : List Action := [.createObject all, .addObject ⟨0, 0⟩, .release 0,
    .clearAllClosedObject all, .pushTemp 0, .tick 5]
  have hrun : (exec (guarded (step cfg) Fresh) (start 0) acts).map
      (fun s => ((s.createObject cfg all).1, s.created)) = some (⟨0, 1⟩, 1) := by
    decide +kernel
  obtain ⟨s, hs, hseen⟩ := Option.map_eq_some_iff.mp hrun
  simp only [Prod.mk.injEq] at hseen
  have hall := pool_reclaims cfg 0 s (Reach.of_exec_guarded acts hs) all
  exact ⟨cfg, s, hseen.1, hseen.1 ▸ (hall.2.2.1 (by rw [hseen.2]; decide)).2⟩

end Invariants

end ObjectPool

end AsioTcp.Wrapper
