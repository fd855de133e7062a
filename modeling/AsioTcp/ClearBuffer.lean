import AsioTcp.PoolInvariant
import AsioTcp.Server

/-!
# `clear_buffer` and the other users of the message buffer

`clear_buffer` deletes what is in `conn_msg_buffer_` under the lock of the
registry, not under `buffer_mutex_`. What keeps the others out is where they
are: here every call of `Manager` is at a place, left with asio, on an io
thread or on a thread of the application in `write_to_all`, and one more thread
runs `server_tcp::start` and `stop`, in any order, also again after an
exception. `stop` joins the io threads of `io_thread_array_` before it comes to
`clear_buffer`, and `write_to_all` holds the lock of the registry throughout.

But `start` writes into `io_thread_array_` whatever is there. When `stop` has
ended by an exception before its joins, the next `start` loses the threads of
the last one: no `stop` waits for them any more, and they go on with their
handlers beside `clear_buffer` (`clearing_overlaps`). As long as no thread is
lost so, `reach_view` says that the whole is a run of `Manager`, in which
`clear_buffer` is a single step that nobody else is in the way of;
`clearing_exclusive` is the result.
-/

namespace AsioTcp.ClearBuffer

open Transition Interleaving
open Manager (Call RegistryFree heldPtrs)
open Server (StartPoint StopPoint)

/-- Where a call is. -/
inductive Place
  /-- left with asio: an operation, or a handler that no thread has begun -/
  | asio
  | ioThread
  /-- a thread of the application, in `write_to_all` -/
  | application
  deriving DecidableEq, Repr

structure Item where
  place : Place
  call : Call
  deriving DecidableEq

/-- The thread that calls `server_tcp::start` and `stop`. -/
inductive Control
  /-- in neither: the last call has returned, or an exception has left it -/
  | idle
  | start (point : StartPoint)
  | stop (point : StopPoint)
  /-- in `clear_buffer`, with the lock of the registry and these messages of
  `conn_msg_buffer_` still to delete -/
  | clearing (todo : List MsgPtr)
  /-- after the bad access of `stop` to an element of `io_thread_array_` that
  points to no thread -/
  | ended
  deriving DecidableEq

structure Shared where
  mgr : Manager.Shared
  control : Control
  /-- `ios_.stopped()` -/
  stopped : Bool
  ioThreadNum : UInt32
  /-- which elements of `io_thread_array_` point to a thread -/
  ioThreadArray : List Bool
  /-- threads in `io_service::run` -/
  running : Nat

inductive Event
  /-- `start_accept` in `handler_accept` -/
  | create
  | destroy (sid : Nat)
  | writeToAll (header : HDR)
  | start
  | stop
  /-- the thread in `start` or `stop` goes on, or what it calls there throws -/
  | control (throws : Bool)

inductive Outcome
  /-- an io thread takes the handler -/
  | picked
  | runs (o : Manager.Outcome)

/-- An operation that asio works on. -/
def isOperation : Call → Bool
  | .chain _ (.asyncWrite _) none | .reading _ (.asyncRead _) => true
  | _ => false

/-- A handler at its beginning; an accept and its handler are one. -/
def isHandler : Call → Bool
  | .chain _ (.handler _ _) none | .reading _ (.handler _ _) | .accepting _ => true
  | _ => false

def isQueued (c : Call) : Bool := isOperation c || isHandler c

/-- The call is at the lock of the registry. -/
def locksRegistry : Call → Bool
  | .chain _ (.handler _ true) _ | .reading _ (.handler _ true) | .accepting _ => true
  | _ => false

/-- What a call goes on as stays on its thread, unless it is left with asio. -/
def put (place : Place) (c : Call) : Item := ⟨if isQueued c then .asio else place, c⟩

/-- The calls of these items. -/
def calls (items : Multiset Item) : Multiset Call := items.map Item.call

def Control.clears : Control → Bool
  | .clearing _ => true
  | _ => false

/-- Asio, the system or an allocation may throw. -/
def Control.mayThrow : Control → Bool
  | .start _ | .stop _ => true
  | _ => false

namespace Shared

def init (ioThreadNum : UInt32) : Shared := ⟨.init, .idle, false, ioThreadNum, [], 0⟩

def goto (s : Shared) (control : Control) : Shared := { s with control := control }

def withMgr (s : Shared) (mgr : Manager.Shared) : Shared := { s with mgr := mgr }

/-- A thread of `io_service::run` is free to run a handler. -/
def ThreadFree (s : Shared) (rest : Multiset Item) : Prop :=
  s.stopped = false ∧ rest.countP (fun i => i.place = .ioThread) < s.running

instance (s : Shared) (rest : Multiset Item) : Decidable (s.ThreadFree rest) :=
  inferInstanceAs (Decidable (_ ∧ _))

end Shared

/-- A step of `Manager`, taken at `place`. -/
def lift (s : Shared) (place : Place) (r : Option (Manager.Shared × Multiset Call)) :
    Option (Shared × Multiset Item) :=
  r.map fun r => (s.withMgr r.1, r.2.map (put place))

/-- `server_tcp::start`. -/
def startNext (s : Shared) (items : Multiset Item) :
    StartPoint → Option (Shared × Multiset Item)
  | .reset => some ({ s with stopped := false, control := .start .acceptor }, 0)
  | .acceptor => some (s.goto (.start .listen), 0)
  | .listen => some (s.goto (.start .startAccept), 0)
  | .startAccept =>
    lift (s.goto (.start .resize)) .asio (Manager.enter s.mgr (calls items) .create)
  | .resize =>
    let n := s.ioThreadNum.toNat
    some ({ s with ioThreadArray := (s.ioThreadArray ++ List.replicate n false).take n
                   control := .start (.spawn 0) }, 0)
  | .spawn i =>
    if i < s.ioThreadNum.toNat then
      some ({ s with ioThreadArray := s.ioThreadArray.set i true, running := s.running + 1
                     control := .start (.spawn (i + 1)) }, 0)
    else some (s.goto .idle, 0)

/-- `server_tcp::stop`, up to the lock of `clear_buffer`. -/
def stopNext (s : Shared) (items : Multiset Item) : StopPoint → Option (Shared × Multiset Item)
  | .cancel => some (s.goto (.stop .close), 0)
  | .close => some (s.goto (.stop .disconnect), 0)
  | .disconnect =>
    lift (s.goto (.stop .iosStop)) .asio (Manager.enter s.mgr (calls items) .stop)
  | .iosStop => some ({ s with stopped := true, control := .stop (.join 0) }, 0)
  | .join i =>
    if i < s.ioThreadNum.toNat then
      match s.ioThreadArray[i]? with
      | some true =>
        -- the thread must have left `run`, so the others have the handlers that run
        if items.countP (fun i => i.place = .ioThread) < s.running then
          some ({ s with ioThreadArray := s.ioThreadArray.set i false, running := s.running - 1
                         control := .stop (.join (i + 1)) }, 0)
        else none
      -- a bad access
      | _ => some (s.goto .ended, 0)
    else some ({ s with ioThreadArray := [], control := .stop .clearBuffer }, 0)
  | .clearBuffer =>
    if RegistryFree (calls items) then
      some (s.goto (.clearing s.mgr.alloc.connMsgBuffer.items), 0)
    else none

/-- The loop of `clear_buffer`, and `conn_msg_buffer_.clear()`. -/
def clearNext (s : Shared) : List MsgPtr → Shared
  | p :: todo => (s.withMgr (s.mgr.setAlloc (s.mgr.alloc.delete p))).goto (.clearing todo)
  | [] =>
    (s.withMgr (s.mgr.setAlloc { s.mgr.alloc with
      connMsgBuffer := .empty s.mgr.alloc.connMsgBuffer.capacity })).goto .idle

def controlNext (s : Shared) (items : Multiset Item) :
    Control → Option (Shared × Multiset Item)
  | .start point => startNext s items point
  | .stop point => stopNext s items point
  | .clearing todo => some (clearNext s todo, 0)
  | .idle | .ended => none

def enter (s : Shared) (items : Multiset Item) : Event → Option (Shared × Multiset Item)
  | .create => lift s .asio (Manager.enter s.mgr (calls items) .create)
  | .destroy sid => lift s .asio (Manager.enter s.mgr (calls items) (.destroy sid))
  | .writeToAll header =>
    if s.control.clears then none
    else lift s .application (Manager.enter s.mgr (calls items) (.writeToAll header))
  | .start => if s.control = .idle then some (s.goto (.start .reset), 0) else none
  | .stop => if s.control = .idle then some (s.goto (.stop .cancel), 0) else none
  | .control true => if s.control.mayThrow then some (s.goto .idle, 0) else none
  | .control false => controlNext s items s.control

def next (s : Shared) (rest : Multiset Item) (item : Item) :
    Outcome → Option (Shared × Multiset Item)
  | .picked =>
    if item.place = .asio ∧ isHandler item.call = true ∧ s.ThreadFree rest then
      some (s, {⟨.ioThread, item.call⟩})
    else none
  | .runs o =>
    if item.place = .asio ∧ isOperation item.call = false then none
    else if s.control.clears = true ∧ locksRegistry item.call = true then none
    else lift s item.place (Manager.next s.mgr (calls rest) item.call o)

def program : Program Shared Item Event Outcome := ⟨enter, next⟩

abbrev State := Config Shared Item
abbrev Action := Interleaving.Action Item Event Outcome

def step : State → Action → Option State := program.step

def start (ioThreadNum : UInt32) : State := ⟨.init ioThreadNum, 0⟩

/-- The next step of `start` writes over an element of `io_thread_array_` that
points to a thread. -/
def Shared.overwrites (s : Shared) : Bool :=
  match s.control with
  | .start (.spawn i) => s.ioThreadArray[i]? == some true
  | _ => false

/-- `start` puts no thread in the place of one that has not been joined. -/
def KeepsThreads (s : State) : Action → Prop
  | .enter (.control false) => s.shared.overwrites = false
  | _ => True

instance (s : State) (a : Action) : Decidable (KeepsThreads s a) := by
  unfold KeepsThreads
  split <;> infer_instance

/-! ## What one call goes on as -/

/-- What is left with asio has no caller to return to. -/
def isBare : Call → Bool
  | .chain _ (.asyncWrite _) (some _) | .chain _ (.handler _ _) (some _) => false
  | _ => true

/-- The call `c` goes on as `cs`: one thread goes on with at most one call,
and with one that holds the lock of the registry if `c` does. -/
structure Continues (c : Call) (cs : Multiset Call) : Prop where
  bare : ∀ d ∈ cs, isBare d = true
  one : cs.countP (fun d => isQueued d = false) ≤ 1
  operation : isOperation c = true → ∀ d ∈ cs, isQueued d = true
  registry : c.holdsRegistry = true → ∀ d ∈ cs, isQueued d = true ∨ d.holdsRegistry = true

theorem continues_none (c : Call) : Continues c 0 where
  bare _ hd := absurd hd (Multiset.notMem_zero _)
  one := Nat.zero_le _
  operation _ _ hd := absurd hd (Multiset.notMem_zero _)
  registry _ _ hd := absurd hd (Multiset.notMem_zero _)

theorem continues_one {c d : Call} (hbare : isBare d = true)
    (hop : isOperation c = true → isQueued d = true)
    (hreg : c.holdsRegistry = true → isQueued d = true ∨ d.holdsRegistry = true) :
    Continues c {d} where
  bare e he := by rwa [Multiset.mem_singleton.mp he]
  one := (Multiset.countP_le_card _ _).trans (Multiset.card_singleton d).le
  operation hc e he := by rw [Multiset.mem_singleton.mp he]; exact hop hc
  registry hc e he := by rw [Multiset.mem_singleton.mp he]; exact hreg hc

/-- Operations that are left with asio take no thread. -/
theorem Continues.with_operations {c : Call} {ops cs : Multiset Call} (h : Continues c cs)
    (hops : ∀ d ∈ ops, isQueued d = true ∧ isBare d = true) : Continues c (ops + cs) := by
  have hcount : ops.countP (fun d => isQueued d = false) = 0 := by
    refine Multiset.countP_eq_zero.mpr fun d hd => ?_
    rw [(hops d hd).1]
    exact Bool.noConfusion
  constructor
  · intro d hd
    exact (Multiset.mem_add.mp hd).elim (fun hd => (hops d hd).2) (h.bare d)
  · rw [Multiset.countP_add, hcount, Nat.zero_add]
    exact h.one
  · intro hc d hd
    exact (Multiset.mem_add.mp hd).elim (fun hd => (hops d hd).1) (h.operation hc d)
  · intro hc d hd
    exact (Multiset.mem_add.mp hd).elim (fun hd => Or.inl (hops d hd).1) (h.registry hc d)

theorem queued_pending (sid : Nat) (op : Option (WriteOp Manager.Ref)) :
    ∀ d ∈ (SessionWrite.pending op).map (Call.chain sid · none),
      isQueued d = true ∧ isBare d = true := by
  intro d hd
  obtain ⟨c, hc, rfl⟩ := Multiset.mem_map.mp hd
  cases op with
  | none => exact absurd hc (Multiset.notMem_zero c)
  | some op =>
    obtain rfl := Multiset.mem_singleton.mp hc
    exact ⟨rfl, rfl⟩

/-- The task that goes on when `write` returns. -/
theorem continues_resume {c : Call} (hop : isOperation c = false) {task : Option Manager.Task}
    (hreg : c.holdsRegistry = true → ∃ header sid todo, task = some (.writeToAll header sid todo)) :
    Continues c (task.elim 0 Manager.Task.resume) := by
  have hop' : ∀ {p : Prop}, isOperation c = true → p := fun hc =>
    Bool.noConfusion (hop.symm.trans hc)
  cases task with
  | none => exact continues_none c
  | some task =>
    cases task with
    | processMsg sid => exact continues_one rfl hop' fun _ => Or.inl rfl
    | writeToAll header sid todo => exact continues_one rfl hop' fun _ => Or.inr rfl
    | application => exact continues_none c

theorem resumed_eq {c : WriteCall Manager.Ref} (h : ∀ msg, c ≠ .writeOnEmpty msg)
    (task : Option Manager.Task) :
    Manager.resumed c task = task.elim 0 Manager.Task.resume := by
  cases c with
  | writeOnEmpty msg => exact absurd rfl (h msg)
  | _ => cases task <;> rfl

theorem holdsRegistry_chain {sid : Nat} {c : WriteCall Manager.Ref} {task : Option Manager.Task}
    (h : (Call.chain sid c task).holdsRegistry = true) :
    ∃ header sid' todo, task = some (.writeToAll header sid' todo) := by
  match task with
  | some (.writeToAll header sid' todo) => exact ⟨header, sid', todo, rfl⟩
  | some (.processMsg _) | some .application | none => cases h

/-- A section of the write side that is not a `write` in progress. -/
theorem continues_handler {sid : Nat} {part : Part} {s s' : Manager.Shared}
    {rest cs : Multiset Call} {o : Manager.Outcome}
    (h : Manager.chainNext s rest sid (.handler part false) none o = some (s', cs)) :
    Continues (.chain sid (.handler part false) none) cs := by
  simp only [Manager.chainNext] at h
  split at h
  · cases h
  have hnone := continues_none (.chain sid (.handler part false) none)
  cases part with
  | header =>
    cases h
    exact hnone.with_operations (queued_pending sid _)
  | body =>
    split at h
    · rename_i he
      cases he
    · cases h
      exact continues_one rfl (fun hc => by cases hc) fun hc => by cases hc
    · cases h
      exact continues_one rfl (fun hc => by cases hc) fun hc => by cases hc

theorem continues_chain {sid : Nat} {c : WriteCall Manager.Ref} {task : Option Manager.Task}
    {s s' : Manager.Shared} {rest cs : Multiset Call} {o : Manager.Outcome}
    (hbare : isBare (.chain sid c task) = true)
    (h : Manager.chainNext s rest sid c task o = some (s', cs)) :
    Continues (.chain sid c task) cs := by
  cases c with
  | writeOnEmpty msg =>
    simp only [Manager.chainNext, Manager.waits, Bool.false_and, Bool.false_eq_true,
      if_false] at h
    cases h
    refine continues_one rfl (fun hc => by cases hc) fun hc => Or.inr ?_
    obtain ⟨header, sid', todo, rfl⟩ := holdsRegistry_chain hc
    rfl
  | writeQueued msg n =>
    simp only [Manager.chainNext, Manager.waits, Bool.false_and, Bool.false_eq_true,
      if_false] at h
    cases h
    rw [resumed_eq fun msg he => by cases he]
    exact (continues_resume rfl holdsRegistry_chain).with_operations
      fun d hd => absurd hd (Multiset.notMem_zero d)
  | doWrite caller =>
    simp only [Manager.chainNext] at h
    split at h
    · cases h
    cases h
    rw [resumed_eq fun msg he => by cases he]
    exact (continues_resume rfl holdsRegistry_chain).with_operations (queued_pending sid _)
  | asyncWrite op =>
    cases task with
    | some task => cases hbare
    | none =>
      simp only [Manager.chainNext, Manager.waits, Bool.false_and, Bool.false_eq_true,
        if_false] at h
      cases h
      exact continues_one rfl (fun _ => rfl) fun _ => Or.inl rfl
  | handler part error =>
    cases task with
    | some task => cases hbare
    | none =>
      cases error with
      | false => exact continues_handler h
      | true =>
        simp only [Manager.chainNext] at h
        split at h
        · cases h
        split at h <;> cases h
        exact continues_none _

theorem continues_reading {sid : Nat} {c : ReadCall} {s s' : Manager.Shared}
    {rest cs : Multiset Call} {o : Manager.Outcome}
    (h : Manager.readNext s rest sid c o = some (s', cs)) : Continues (.reading sid c) cs := by
  have hreg : ∀ {d : Call}, (Call.reading sid c).holdsRegistry = true →
      isQueued d = true ∨ d.holdsRegistry = true := fun hc => by cases hc
  simp only [Manager.readNext] at h
  split at h
  · cases h
    exact continues_one rfl (fun _ => rfl) hreg
  · cases h
    exact continues_one rfl (fun _ => rfl) hreg
  · cases h
    exact continues_one rfl (fun _ => rfl) hreg
  · split at h <;> cases h
    exact continues_none _
  · cases h
    split
    · exact continues_one rfl (fun _ => rfl) hreg
    · exact continues_none _
  · cases h
    exact continues_one rfl (fun hc => by cases hc) hreg
  · cases h

theorem continues_handOut {c : Call} (hop : isOperation c = false) {task : Manager.Task}
    (hreg : c.holdsRegistry = true → ∃ header sid todo, task = .writeToAll header sid todo)
    {s s' : Manager.Shared} {header : HDR} {r : Allocator × Allocated} {cs : Multiset Call}
    (h : Manager.handOut s task header r = (s', cs)) : Continues c cs := by
  have hop' : ∀ {p : Prop}, isOperation c = true → p := fun hc =>
    Bool.noConfusion (hop.symm.trans hc)
  obtain ⟨alloc, result⟩ := r
  cases result with
  | got p =>
    cases h
    refine continues_one rfl hop' fun hc => Or.inr ?_
    obtain ⟨header', sid, todo, rfl⟩ := hreg hc
    rfl
  | retry =>
    cases h
    refine continues_one rfl hop' fun hc => Or.inr ?_
    obtain ⟨header', sid, todo, rfl⟩ := hreg hc
    rfl
  | badAlloc =>
    cases h
    exact continues_none c

/-- The tasks that hold the lock of the registry are those of `write_to_all`. -/
theorem holdsRegistry_task {task : Manager.Task} {c : Call}
    (hc : ∀ sid, task = .processMsg sid → c.holdsRegistry = false)
    (ha : task = .application → c.holdsRegistry = false) (h : c.holdsRegistry = true) :
    ∃ header sid todo, task = .writeToAll header sid todo := by
  cases task with
  | processMsg sid => exact absurd (hc sid rfl) (by rw [h]; exact Bool.noConfusion)
  | writeToAll header sid todo => exact ⟨header, sid, todo, rfl⟩
  | application => exact absurd (ha rfl) (by rw [h]; exact Bool.noConfusion)

theorem continues_inHand {task : Manager.Task} {msg : Manager.Ref} {s s' : Manager.Shared}
    {cs : Multiset Call} {o : Manager.Outcome}
    (h : Manager.inHandNext s task msg o = some (s', cs)) : Continues (.inHand task msg) cs := by
  cases o with
  | setBody mem data n =>
    simp only [Manager.inHandNext, Option.some.injEq, Prod.mk.injEq] at h
    obtain ⟨_, rfl⟩ := h
    split
    · exact continues_none _
    · exact continues_one rfl (fun hc => by cases hc) Or.inr
  | write sid =>
    simp only [Manager.inHandNext] at h
    split at h <;> cases h
    have hwrite : ((s.sessions sid).write.write msg).2 = .writeOnEmpty msg ∨
        ∃ n, ((s.sessions sid).write.write msg).2 = .writeQueued msg n := by
      unfold WriteSide.write
      split
      · exact Or.inl rfl
      · exact Or.inr ⟨_, rfl⟩
    have hbare : isBare (.chain sid ((s.sessions sid).write.write msg).2 (some task)) = true := by
      rcases hwrite with he | ⟨n, he⟩ <;> rw [he] <;> rfl
    refine continues_one hbare (fun hc => by cases hc) fun hc => Or.inr ?_
    have hbroadcast : ∃ header sid' todo, task = .writeToAll header sid' todo :=
      holdsRegistry_task (fun _ he => by rw [he]; rfl) (fun he => by rw [he]; rfl) hc
    obtain ⟨header, sid', todo, rfl⟩ := hbroadcast
    rfl
  | _ => cases h

/-- **What a call goes on as**, in one step. -/
theorem continues_of_next {c : Call} {s s' : Manager.Shared} {rest cs : Multiset Call}
    {o : Manager.Outcome} (hbare : isBare c = true)
    (h : Manager.next s rest c o = some (s', cs)) : Continues c cs := by
  cases c with
  | chain sid c task => exact continues_chain hbare h
  | reading sid c => exact continues_reading h
  | inHand task msg => exact continues_inHand h
  | dellocate sid msg =>
    simp only [Manager.next] at h
    split at h <;> cases h <;> exact continues_one rfl (fun hc => by cases hc) fun hc => by cases hc
  | dellocateRetry sid msg | dellocated sid msg =>
    cases h
    exact continues_one rfl (fun hc => by cases hc) fun hc => by cases hc
  | starting sid =>
    cases h
    exact continues_one rfl (fun _ => rfl) fun _ => Or.inl rfl
  | accepting sid =>
    cases o with
    | go =>
      simp only [Manager.next] at h
      split at h <;> cases h
      exact continues_one rfl (fun hc => by cases hc) fun hc => by cases hc
    | error =>
      simp only [Manager.next] at h
      split at h <;> cases h
      exact continues_none _
    | refused => cases h; exact continues_none _
    | _ => cases h
  | allocate task header | allocateRetry task header =>
    cases o with
    | memory mem =>
      exact continues_handOut rfl (holdsRegistry_task (fun _ he => by rw [he]; rfl)
        fun he => by rw [he]; rfl) (Option.some.inj h)
    | _ => cases h
  | broadcast header todo =>
    cases todo with
    | nil => cases h; exact continues_none _
    | cons sid todo => cases h; exact continues_one rfl (fun hc => by cases hc) fun _ => Or.inr rfl

/-! ## Where the calls are -/

structure Item.Fine (item : Item) : Prop where
  bare : isBare item.call = true
  asio : item.place = .asio → isQueued item.call = true
  application : item.place = .application → item.call.holdsRegistry = true

/-- What `io_thread_array_` is like at this point of `start` or `stop`. -/
def Shared.ArrayAt (s : Shared) : Control → Prop
  | .start (.spawn _) => s.ioThreadArray.length = s.ioThreadNum.toNat
  | .stop (.join i) => ∀ j < i, s.ioThreadArray[j]? ≠ some true
  | .stop .clearBuffer | .clearing _ => s.ioThreadArray = []
  | _ => True

/-- Every thread that runs is one that `io_thread_array_` points to. -/
structure Shared.Threads (s : Shared) (control : Control) : Prop where
  running : s.running = s.ioThreadArray.count true
  length : s.ioThreadArray.length ≤ s.ioThreadNum.toNat
  point : s.ArrayAt control

structure Placed (s : State) : Prop where
  items : ∀ item ∈ s.calls, item.Fine
  threads : s.calls.countP (fun i => i.place = .ioThread) ≤ s.shared.running
  array : s.shared.Threads s.shared.control
  clearing : s.shared.control.clears = true → ∀ item ∈ s.calls, item.place = .asio

/-- `start` and `stop` come to a point that asks nothing of the array. -/
theorem Shared.Threads.goto {s : Shared} {control control' : Control} (h : s.Threads control)
    (hpoint : s.ArrayAt control') : (s.goto control').Threads control' :=
  ⟨h.running, h.length, hpoint⟩

theorem Shared.Threads.withMgr {s : Shared} {control : Control} (h : s.Threads control)
    (mgr : Manager.Shared) : (s.withMgr mgr).Threads control := by
  refine ⟨h.running, h.length, ?_⟩
  have hpoint := h.point
  cases control with
  | start point | stop point => cases point <;> exact hpoint
  | _ => exact hpoint

/-- With `io_thread_array_` empty no thread runs. -/
theorem Shared.Threads.none_running {s : Shared} {control : Control} (h : s.Threads control)
    (hempty : s.ioThreadArray = []) : s.running = 0 := by
  rw [h.running, hempty]
  rfl

theorem placed_start (n : UInt32) : Placed (start n) where
  items _ hi := absurd hi (Multiset.notMem_zero _)
  threads := Nat.zero_le _
  array := ⟨rfl, Nat.zero_le _, trivial⟩
  clearing _ _ hi := absurd hi (Multiset.notMem_zero _)

theorem lift_some {s s' : Shared} {place : Place} {r : Option (Manager.Shared × Multiset Call)}
    {items : Multiset Item} (h : lift s place r = some (s', items)) :
    ∃ m cs, r = some (m, cs) ∧ s' = s.withMgr m ∧ items = cs.map (put place) := by
  obtain ⟨⟨m, cs⟩, hr, he⟩ := Option.map_eq_some_iff.mp h
  cases he
  exact ⟨m, cs, hr, rfl, rfl⟩

theorem place_put_asio {place : Place} {c : Call} (h : isQueued c = true) :
    (put place c).place = .asio := if_pos h

theorem fine_put {place : Place} {c : Call} (hbare : isBare c = true)
    (hasio : place = .asio → isQueued c = true)
    (happ : place = .application → isQueued c = true ∨ c.holdsRegistry = true) :
    (put place c).Fine := by
  cases hq : isQueued c with
  | true =>
    refine ⟨hbare, fun _ => hq, fun hp => ?_⟩
    rw [place_put_asio hq] at hp
    cases hp
  | false =>
    have hplace : (put place c).place = place := by
      rw [put, hq]
      rfl
    refine ⟨hbare, fun hp => ?_, fun hp => ?_⟩
    · exact hasio (hplace.symm.trans hp)
    · exact (happ (hplace.symm.trans hp)).resolve_left (by rw [hq]; exact Bool.noConfusion)

/-- The call goes on at its place. -/
theorem fine_continues {item : Item} (hitem : item.Fine) {cs : Multiset Call}
    (hcs : Continues item.call cs) (hop : item.place = .asio → isOperation item.call = true) :
    ∀ i ∈ cs.map (put item.place), i.Fine := by
  intro i hi
  obtain ⟨c, hc, rfl⟩ := Multiset.mem_map.mp hi
  exact fine_put (hcs.bare c hc) (fun hp => hcs.operation (hop hp) c hc)
    fun hp => hcs.registry (hitem.application hp) c hc

/-- It keeps its thread at most. -/
theorem countP_put (place : Place) (cs : Multiset Call) :
    (cs.map (put place)).countP (fun i => i.place = .ioThread) =
      if place = .ioThread then cs.countP (fun c => isQueued c = false) else 0 := by
  rw [Multiset.countP_map, ← Multiset.countP_eq_card_filter]
  split
  · rename_i hplace
    refine Multiset.countP_congr rfl fun c _ => ?_
    cases hq : isQueued c <;> simp [put, hq, hplace]
  · rename_i hplace
    refine Multiset.countP_eq_zero.mpr fun c _ => ?_
    cases hq : isQueued c <;> simp [put, hq, hplace]

/-- While `clear_buffer` runs, only operations go on. -/
theorem Placed.operation {s : State} (h : Placed s) (hclears : s.shared.control.clears = true)
    {item : Item} (hitem : item ∈ s.calls)
    (hrun : ¬ (item.place = .asio ∧ isOperation item.call = false)) :
    isOperation item.call = true := by
  cases hop : isOperation item.call with
  | true => rfl
  | false => exact absurd ⟨h.clearing hclears item hitem, hop⟩ hrun

theorem placed_runs {s : State} (h : Placed s) {item : Item} {rest : Multiset Item}
    (hs : s.calls = item ::ₘ rest) {m : Manager.Shared} {cs : Multiset Call}
    (hrun : ¬ (item.place = .asio ∧ isOperation item.call = false))
    (hcs : Continues item.call cs) :
    Placed ⟨s.shared.withMgr m, cs.map (put item.place) + rest⟩ := by
  have hmem : item ∈ s.calls := hs ▸ Multiset.mem_cons_self item rest
  have hop : item.place = .asio → isOperation item.call = true := fun hp =>
    Bool.eq_true_of_not_eq_false fun hop => hrun ⟨hp, hop⟩
  constructor
  · intro i hi
    rcases Multiset.mem_add.mp hi with hi | hi
    · exact fine_continues (h.items item hmem) hcs hop i hi
    · exact h.items i (hs ▸ Multiset.mem_cons_of_mem hi)
  · have hcount := h.threads
    rw [hs, Multiset.countP_cons] at hcount
    rw [Multiset.countP_add, countP_put]
    have hone := hcs.one
    show _ ≤ s.shared.running
    split at hcount <;> rename_i hplace
    · rw [if_pos hplace]
      omega
    · rw [if_neg hplace]
      omega
  · exact h.array.withMgr m
  · intro hclears i hi
    rcases Multiset.mem_add.mp hi with hi | hi
    · obtain ⟨c, hc, rfl⟩ := Multiset.mem_map.mp hi
      exact place_put_asio (hcs.operation (h.operation hclears hmem hrun) c hc)
    · exact h.clearing hclears i (hs ▸ Multiset.mem_cons_of_mem hi)

/-- No handler begins while `clear_buffer` runs: there is no thread for it. -/
theorem Placed.not_free {s : State} (h : Placed s) (hclears : s.shared.control.clears = true)
    (items : Multiset Item) : ¬ s.shared.ThreadFree items := by
  have harray := h.array
  rintro ⟨_, hlt⟩
  cases hcontrol : s.shared.control with
  | clearing todo =>
    rw [hcontrol] at harray
    have hzero := harray.none_running harray.point
    omega
  | _ => rw [hcontrol] at hclears; cases hclears

theorem placed_picked {s : State} (h : Placed s) {item : Item} {rest : Multiset Item}
    (hs : s.calls = item ::ₘ rest) (hfree : s.shared.ThreadFree rest) :
    Placed ⟨s.shared, {⟨.ioThread, item.call⟩} + rest⟩ := by
  have hitem := h.items item (hs ▸ Multiset.mem_cons_self item rest)
  constructor
  · intro i hi
    rcases Multiset.mem_add.mp hi with hi | hi
    · obtain rfl := Multiset.mem_singleton.mp hi
      constructor
      · exact hitem.bare
      · exact fun hp => Place.noConfusion hp
      · exact fun hp => Place.noConfusion hp
    · exact h.items i (hs ▸ Multiset.mem_cons_of_mem hi)
  · show (({⟨.ioThread, item.call⟩} : Multiset Item) + rest).countP _ ≤ s.shared.running
    rw [Multiset.singleton_add, Multiset.countP_cons, if_pos rfl]
    exact hfree.2
  · exact h.array
  · intro hclears
    exact absurd hfree (h.not_free hclears rest)

/-- Calls enter that are no handlers. -/
theorem placed_enters {s : State} (h : Placed s) {place : Place} (hplace : place ≠ .ioThread)
    {s' : Shared} {cs : Multiset Call} (hfine : ∀ i ∈ cs.map (put place), i.Fine)
    (hrunning : s'.running = s.shared.running) (harray : s'.Threads s'.control)
    (hclears : s'.control.clears = true → s.shared.control.clears = true ∧
      ∀ i ∈ cs.map (put place), i.place = .asio) :
    Placed ⟨s', cs.map (put place) + s.calls⟩ := by
  refine ⟨fun i hi => ?_, ?_, harray, fun hc i hi => ?_⟩
  · exact (Multiset.mem_add.mp hi).elim (hfine i) (h.items i)
  · rw [Multiset.countP_add, countP_put, if_neg hplace, Nat.zero_add, hrunning]
    exact h.threads
  · obtain ⟨hold, hnew⟩ := hclears hc
    exact (Multiset.mem_add.mp hi).elim (hnew i) (h.clearing hold i)

/-- No call is touched, and `clear_buffer` does not begin. -/
theorem placed_same {s : State} (h : Placed s) {s' : Shared}
    (hrunning : s'.running = s.shared.running) (harray : s'.Threads s'.control)
    (hclears : s'.control.clears = true → s.shared.control.clears = true) :
    Placed ⟨s', 0 + s.calls⟩ :=
  @placed_enters s h .asio (by decide) s' 0
    (fun i hi => absurd hi (Multiset.notMem_zero i)) hrunning harray
    fun hc => ⟨hclears hc, fun i hi => absurd hi (Multiset.notMem_zero i)⟩

theorem fine_accepting (sid : Nat) :
    ∀ i ∈ ({.accepting sid} : Multiset Call).map (put .asio), i.Fine ∧ i.place = .asio := by
  intro i hi
  rw [Multiset.map_singleton] at hi
  obtain rfl := Multiset.mem_singleton.mp hi
  exact ⟨⟨rfl, fun _ => rfl, fun hp => Place.noConfusion hp⟩, rfl⟩

/-- `io_thread_array_.resize` adds no thread and drops none. -/
theorem count_resize {array : List Bool} {n : Nat} (h : array.length ≤ n) :
    ((array ++ List.replicate n false).take n).count true = array.count true := by
  rw [List.take_append, List.take_of_length_le h, List.take_replicate, List.count_append,
    List.count_replicate, if_neg (by decide), Nat.add_zero]

theorem count_spawn {array : List Bool} {i : Nat} (hi : i < array.length)
    (hfree : array[i]? ≠ some true) : (array.set i true).count true = array.count true + 1 := by
  have hi' : array[i] = false := by
    rw [List.getElem?_eq_getElem hi] at hfree
    exact Bool.eq_false_of_not_eq_true fun he => hfree (congrArg some he)
  rw [List.count_set hi, hi']
  rfl

theorem count_join {array : List Bool} {i : Nat} (hset : array[i]? = some true) :
    (array.set i false).count true = array.count true - 1 := by
  obtain ⟨hi, hi'⟩ := List.getElem?_eq_some_iff.mp hset
  rw [List.count_set hi, hi']
  rfl

/-- When the loop of `stop` is over, the array points to no thread. -/
theorem count_joined {array : List Bool} {i : Nat} (hi : array.length ≤ i)
    (hjoined : ∀ j < i, array[j]? ≠ some true) : array.count true = 0 := by
  refine List.count_eq_zero.mpr fun hmem => ?_
  obtain ⟨j, hj⟩ := List.mem_iff_getElem?.mp hmem
  have hlt : j < array.length := (List.getElem?_eq_some_iff.mp hj).1
  exact hjoined j (hlt.trans_le hi) hj

theorem placed_startNext {s : State} (h : Placed s) {point : StartPoint}
    (hcontrol : s.shared.control = .start point) (hkeeps : s.shared.overwrites = false)
    {s' : Shared} {items : Multiset Item}
    (hnext : startNext s.shared s.calls point = some (s', items)) :
    Placed ⟨s', items + s.calls⟩ := by
  have harray := h.array
  rw [hcontrol] at harray
  cases point with
  | reset | acceptor | listen =>
    cases hnext
    exact placed_same h rfl ⟨harray.running, harray.length, trivial⟩ fun hc => by cases hc
  | startAccept =>
    obtain ⟨m, cs, hm, rfl, rfl⟩ := lift_some hnext
    cases hm
    exact placed_enters h (by decide) (fun i hi => (fine_accepting _ i hi).1) rfl
      ⟨harray.running, harray.length, trivial⟩ fun hc => by cases hc
  | resize =>
    cases hnext
    have hlength : ((s.shared.ioThreadArray ++
        List.replicate s.shared.ioThreadNum.toNat false).take s.shared.ioThreadNum.toNat).length =
        s.shared.ioThreadNum.toNat := by
      simp
    exact placed_same h rfl
      ⟨harray.running.trans (count_resize harray.length).symm, hlength.le, hlength⟩
      fun hc => by cases hc
  | spawn i =>
    have hlength : s.shared.ioThreadArray.length = s.shared.ioThreadNum.toNat := harray.point
    simp only [startNext] at hnext
    split at hnext <;> rename_i hlt <;> cases hnext
    · have hfree : s.shared.ioThreadArray[i]? ≠ some true := by
        simpa [Shared.overwrites, hcontrol] using hkeeps
      constructor
      · exact fun i hi => h.items i ((zero_add s.calls) ▸ hi)
      · show (0 + s.calls).countP _ ≤ s.shared.running + 1
        rw [Multiset.zero_add]
        exact Nat.le_succ_of_le h.threads
      · refine ⟨?_, (List.length_set ..).le.trans harray.length,
          (List.length_set ..).trans hlength⟩
        show s.shared.running + 1 = (s.shared.ioThreadArray.set i true).count true
        rw [count_spawn (hlength ▸ hlt) hfree, harray.running]
      · exact fun hc => by cases hc
    · exact placed_same h rfl (harray.goto trivial) fun hc => by cases hc

/-- All threads are joined: nothing is on an io thread any more, and the lock
of the registry keeps the application out. -/
theorem Placed.all_asio {s : State} (h : Placed s) (hrunning : s.shared.running = 0)
    (hfree : RegistryFree (calls s.calls)) : ∀ item ∈ s.calls, item.place = .asio := by
  intro item hitem
  cases hplace : item.place with
  | asio => rfl
  | ioThread =>
    have hcount := h.threads
    rw [hrunning, Nat.le_zero] at hcount
    exact absurd hplace (Multiset.countP_eq_zero.mp hcount item hitem)
  | application =>
    have hreg := (h.items item hitem).application hplace
    rw [hfree item.call (Multiset.mem_map_of_mem Item.call hitem)] at hreg
    cases hreg

theorem placed_stopNext {s : State} (h : Placed s) {point : StopPoint}
    (hcontrol : s.shared.control = .stop point) {s' : Shared} {items : Multiset Item}
    (hnext : stopNext s.shared s.calls point = some (s', items)) :
    Placed ⟨s', items + s.calls⟩ := by
  have harray := h.array
  rw [hcontrol] at harray
  cases point with
  | cancel | close =>
    cases hnext
    exact placed_same h rfl (harray.goto trivial) fun hc => by cases hc
  | disconnect =>
    obtain ⟨m, cs, hm, rfl, rfl⟩ := lift_some hnext
    simp only [Manager.enter] at hm
    split at hm <;> cases hm
    exact placed_same h rfl ⟨harray.running, harray.length, trivial⟩ fun hc => by cases hc
  | iosStop =>
    cases hnext
    exact placed_same h rfl ⟨harray.running, harray.length, fun j hj => absurd hj j.not_lt_zero⟩
      fun hc => by cases hc
  | join i =>
    have hjoined : ∀ j < i, s.shared.ioThreadArray[j]? ≠ some true := harray.point
    simp only [stopNext] at hnext
    split at hnext <;> rename_i hlt
    · split at hnext
      · rename_i hset
        split at hnext <;> cases hnext
        rename_i hleft
        constructor
        · exact fun i hi => h.items i ((zero_add s.calls) ▸ hi)
        · show (0 + s.calls).countP _ ≤ s.shared.running - 1
          rw [Multiset.zero_add]
          exact Nat.le_sub_one_of_lt hleft
        · refine ⟨?_, (List.length_set ..).le.trans harray.length, fun j hj => ?_⟩
          · show s.shared.running - 1 = (s.shared.ioThreadArray.set i false).count true
            rw [count_join hset, harray.running]
          · show (s.shared.ioThreadArray.set i false)[j]? ≠ some true
            rcases Nat.lt_succ_iff_lt_or_eq.mp hj with hj | rfl
            · rw [List.getElem?_set_ne (Nat.ne_of_gt hj)]
              exact hjoined j hj
            · rw [List.getElem?_set_self (List.getElem?_eq_some_iff.mp hset).1]
              exact fun he => Bool.noConfusion (Option.some.inj he)
        · exact fun hc => by cases hc
      · cases hnext
        exact placed_same h rfl (harray.goto trivial) fun hc => by cases hc
    · cases hnext
      have hnone := count_joined (harray.length.trans (Nat.not_lt.mp hlt)) hjoined
      exact placed_same h rfl ⟨harray.running.trans hnone, Nat.zero_le _, rfl⟩
        fun hc => by cases hc
  | clearBuffer =>
    simp only [stopNext] at hnext
    split at hnext <;> cases hnext
    rename_i hfree
    have hasio := h.all_asio (harray.none_running harray.point) hfree
    constructor
    · exact fun i hi => h.items i ((zero_add s.calls) ▸ hi)
    · show (0 + s.calls).countP _ ≤ s.shared.running
      rw [Multiset.zero_add]
      exact h.threads
    · exact harray.goto harray.point
    · exact fun _ i hi => hasio i ((zero_add s.calls) ▸ hi)

theorem placed_controlNext {s : State} (h : Placed s) (hkeeps : s.shared.overwrites = false)
    {s' : Shared} {items : Multiset Item}
    (hnext : controlNext s.shared s.calls s.shared.control = some (s', items)) :
    Placed ⟨s', items + s.calls⟩ := by
  have harray := h.array
  cases hcontrol : s.shared.control with
  | start point =>
    rw [hcontrol] at hnext
    exact placed_startNext h hcontrol hkeeps hnext
  | stop point =>
    rw [hcontrol] at hnext
    exact placed_stopNext h hcontrol hnext
  | clearing todo =>
    rw [hcontrol] at hnext harray
    cases todo with
    | nil =>
      cases hnext
      exact placed_same h rfl ⟨harray.running, harray.length, trivial⟩ fun hc => by cases hc
    | cons p todo =>
      cases hnext
      exact placed_same h rfl ⟨harray.running, harray.length, harray.point⟩
        fun _ => by rw [hcontrol]; rfl
  | idle | ended => rw [hcontrol] at hnext; cases hnext

theorem placed_enter {s : State} (h : Placed s) {e : Event} (hkeeps : KeepsThreads s (.enter e))
    {s' : Shared} {items : Multiset Item}
    (henter : enter s.shared s.calls e = some (s', items)) : Placed ⟨s', items + s.calls⟩ := by
  cases e with
  | create =>
    obtain ⟨m, cs, hm, rfl, rfl⟩ := lift_some henter
    cases hm
    exact placed_enters h (by decide) (fun i hi => (fine_accepting _ i hi).1) rfl
      (h.array.withMgr _) fun hc => ⟨hc, fun i hi => (fine_accepting _ i hi).2⟩
  | destroy sid =>
    obtain ⟨m, cs, hm, rfl, rfl⟩ := lift_some henter
    simp only [Manager.enter] at hm
    split at hm <;> cases hm
    exact placed_same h rfl (h.array.withMgr _) id
  | writeToAll header =>
    simp only [enter] at henter
    split at henter
    · cases henter
    rename_i hclears
    obtain ⟨m, cs, hm, rfl, rfl⟩ := lift_some henter
    cases hm
    refine placed_enters h (by decide) (fun i hi => ?_) rfl (h.array.withMgr _)
      fun hc => absurd hc hclears
    rw [Multiset.map_singleton] at hi
    obtain rfl := Multiset.mem_singleton.mp hi
    exact fine_put rfl (fun hp => Place.noConfusion hp) fun _ => Or.inr rfl
  | start | stop =>
    simp only [enter] at henter
    split at henter <;> cases henter
    exact placed_same h rfl (h.array.goto trivial) fun hc => by cases hc
  | control throws =>
    cases throws with
    | false => exact placed_controlNext h hkeeps henter
    | true =>
      simp only [enter] at henter
      split at henter <;> cases henter
      exact placed_same h rfl (h.array.goto trivial) fun hc => by cases hc

theorem placed_step {s t : State} {a : Action} (h : Placed s) (hkeeps : KeepsThreads s a)
    (hstep : step s a = some t) : Placed t := by
  obtain ⟨t', items⟩ := t
  cases a with
  | enter e =>
    obtain ⟨new, hnew, ht⟩ := Program.step_enter hstep
    simp only at hnew ht
    exact ht ▸ placed_enter h hkeeps hnew
  | run item o =>
    obtain ⟨rest, new, hs, hnew, ht⟩ := Program.step_run hstep
    simp only [program, next] at hnew ht
    subst ht
    cases o with
    | picked =>
      simp only at hnew
      split at hnew <;> cases hnew
      rename_i hguard
      exact placed_picked h hs hguard.2.2
    | runs o =>
      simp only at hnew
      split at hnew
      · cases hnew
      split at hnew
      · cases hnew
      rename_i hrun _
      obtain ⟨m, cs, hm, rfl, rfl⟩ := lift_some hnew
      have hitem := h.items item (hs ▸ Multiset.mem_cons_self item rest)
      exact placed_runs h hs hrun (continues_of_next hitem.bare hm)

/-! ## Deleting the messages one by one -/

/-- `clear_buffer` still has `todo` to delete, and has deleted the others. -/
structure Deleting (a : Allocator) (todo : List MsgPtr) : Prop where
  pooled : ∀ p ∈ todo, p ∈ a.connMsgBuffer.items
  nodup : todo.Nodup
  live : ∀ p ∈ todo, (a.objects p).isSome
  gone : ∀ p ∈ a.connMsgBuffer.items, p ∉ todo → a.objects p = none

theorem deleting_all {a : Allocator} {held : Multiset MsgPtr} (h : a.Owns held) :
    Deleting a a.connMsgBuffer.items where
  pooled _ := id
  nodup := (Multiset.nodup_add.mp h.nodup).2.1
  live p hp := h.live p (Multiset.mem_add.mpr (Or.inr hp))
  gone _ hp hn := absurd hp hn

theorem deleting_delete {a : Allocator} {p : MsgPtr} {todo : List MsgPtr}
    (h : Deleting a (p :: todo)) : Deleting (a.delete p) todo := by
  obtain ⟨hp, hnodup⟩ := List.nodup_cons.mp h.nodup
  constructor
  · exact fun q hq => h.pooled q (List.mem_cons_of_mem p hq)
  · exact hnodup
  · intro q hq
    have he : q ≠ p := fun he => hp (he ▸ hq)
    rw [Allocator.delete, Allocator.setObject_other a he]
    exact h.live q (List.mem_cons_of_mem p hq)
  · intro q hq hn
    by_cases he : q = p
    · rw [he]
      exact Allocator.setObject_self a p none
    · rw [Allocator.delete, Allocator.setObject_other a he]
      exact h.gone q hq fun hmem => (List.mem_cons.mp hmem).elim he hn

theorem clearBuffer_delete {a : Allocator} {p : MsgPtr} (hp : p ∈ a.connMsgBuffer.items) :
    (a.delete p).clearBuffer = a.clearBuffer := by
  have hobjects : (a.delete p).clearBuffer.objects = a.clearBuffer.objects := by
    funext q
    show (if q ∈ a.connMsgBuffer.items then none else if q = p then none else a.objects q) =
      if q ∈ a.connMsgBuffer.items then none else a.objects q
    split
    · rfl
    · rename_i hq
      exact if_neg fun he : q = p => hq (he ▸ hp)
  exact congrArg (fun f => { a.clearBuffer with objects := f }) hobjects

/-- When all are deleted, `conn_msg_buffer_.clear()` is what is left to do. -/
theorem clearBuffer_deleted {a : Allocator} (h : Deleting a []) :
    { a with connMsgBuffer := .empty a.connMsgBuffer.capacity } = a.clearBuffer := by
  simp only [Allocator.clearBuffer, Allocator.mk.injEq, and_true]
  funext q
  split
  · rename_i hq
    exact h.gone q hq List.not_mem_nil
  · rfl

/-! ## One run of `Manager` -/

/-- The registry and the sessions, with `clear_buffer` done as soon as it has
the lock. -/
def Shared.view (s : Shared) : Manager.Shared :=
  if s.control.clears then s.mgr.setAlloc s.mgr.alloc.clearBuffer else s.mgr

def view (s : State) : Manager.State := ⟨s.shared.view, calls s.calls⟩

@[simp] theorem calls_put (place : Place) (cs : Multiset Call) :
    calls (cs.map (put place)) = cs := by
  rw [calls, Multiset.map_map]
  exact Multiset.map_id cs

@[simp] theorem calls_add (items items' : Multiset Item) :
    calls (items + items') = calls items + calls items' := Multiset.map_add _ items items'

theorem view_quiet {s : Shared} (h : s.control.clears = false) : s.view = s.mgr :=
  if_neg (by rw [h]; exact Bool.noConfusion)

theorem view_clears {s : Shared} (h : s.control.clears = true) :
    s.view = s.mgr.setAlloc s.mgr.alloc.clearBuffer := if_pos h

theorem view_withMgr_quiet {s : Shared} (h : s.control.clears = false) (m : Manager.Shared) :
    (s.withMgr m).view = m := view_quiet (s := s.withMgr m) h

theorem view_withMgr_clears {s : Shared} (h : s.control.clears = true) (m : Manager.Shared) :
    (s.withMgr m).view = m.setAlloc m.alloc.clearBuffer := view_clears (s := s.withMgr m) h

/-- An operation leaves the allocator alone, and asks nothing of it. -/
theorem next_operation {c : Call} (hc : isOperation c = true) {m m' : Manager.Shared}
    {rest cs : Multiset Call} {o : Manager.Outcome}
    (h : Manager.next m rest c o = some (m', cs)) : m'.alloc = m.alloc ∧
      ∀ a, Manager.next (m.setAlloc a) rest c o = some (m'.setAlloc a, cs) := by
  match c, hc with
  | .chain sid (.asyncWrite op) none, _ =>
    simp only [Manager.next, Manager.chainNext, Manager.waits, Bool.false_and,
      Bool.false_eq_true, if_false] at h
    cases h
    exact ⟨rfl, fun a => rfl⟩
  | .reading sid (.asyncRead op), _ =>
    cases o with
    | error => cases h; exact ⟨rfl, fun a => rfl⟩
    | received header =>
      cases op with
      | header => cases h; exact ⟨rfl, fun a => rfl⟩
      | body n => cases h
    | go =>
      cases op with
      | header => cases h
      | body n => cases h; exact ⟨rfl, fun a => rfl⟩
    | _ => cases op <;> cases h

/-- The messages that `clear_buffer` has deleted are those it should have. -/
def Clears (s : Shared) : Prop := ∀ todo, s.control = .clearing todo → Deleting s.mgr.alloc todo

theorem clears_quiet {s : Shared} (h : s.control.clears = false) : Clears s := by
  intro todo hc
  rw [hc] at h
  cases h

/-- What holds of every state: the places, the deletions, and the run of
`Manager` up to here. -/
structure Tracked (s : State) : Prop where
  placed : Placed s
  clears : Clears s.shared
  reach : Reach Manager.step always Manager.start (view s)

/-- The run of `Manager` goes on. -/
structure Follows (s : State) (s' : Shared) (items : Multiset Item) : Prop where
  clears : Clears s'
  reach : Reach Manager.step always (view s) (view ⟨s', items⟩)

theorem follows_quiet {s : State} {s' : Shared} {items : Multiset Item} (hclears : Clears s')
    (hview : s'.view = s.shared.view) (hcalls : calls items = calls s.calls) :
    Follows s s' items := by
  refine ⟨hclears, ?_⟩
  rw [show view ⟨s', items⟩ = view s from congrArg₂ Config.mk hview hcalls]
  exact Reach.refl

/-- The registry is entered from outside. -/
theorem follows_enter {s : State} {e : Manager.Event} {place : Place} {s' : Shared}
    {cs : Multiset Call} (hclears : Clears s')
    (h : Manager.enter s.shared.view (calls s.calls) e = some (s'.view, cs)) :
    Follows s s' (cs.map (put place) + s.calls) := by
  refine ⟨hclears, Reach.single (a := .enter e) trivial ?_⟩
  show (Manager.enter s.shared.view (calls s.calls) e).map _ =
    some (⟨s'.view, calls (cs.map (put place) + s.calls)⟩ : Manager.State)
  rw [h, calls_add, calls_put]
  rfl

/-- A call runs at its place. -/
theorem follows_run {s : State} {item : Item} {rest : Multiset Item} {o : Manager.Outcome}
    (hs : s.calls = item ::ₘ rest) {s' : Shared} {cs : Multiset Call} (hclears : Clears s')
    (h : Manager.next s.shared.view (calls rest) item.call o = some (s'.view, cs)) :
    Follows s s' (cs.map (put item.place) + rest) := by
  refine ⟨hclears, Reach.single (a := .run item.call o) trivial ?_⟩
  have hcalls : view s = ⟨s.shared.view, item.call ::ₘ calls rest⟩ := by
    rw [view, hs, calls, Multiset.map_cons]
    rfl
  rw [hcalls, view, calls_add, calls_put]
  exact Program.run_of_next h

theorem usesPool_queued {c : Call} (h : isQueued c = true) : c.usesPool = false := by
  cases c with
  | chain | reading | accepting => rfl
  | _ => cases h

/-- Nobody is in the way of `clear_buffer` when it gets the lock. -/
theorem follows_clearBuffer {s : State} (h : Tracked s)
    (hcontrol : s.shared.control = .stop .clearBuffer) (hfree : RegistryFree (calls s.calls)) :
    Follows s (s.shared.goto (.clearing s.shared.mgr.alloc.connMsgBuffer.items)) (0 + s.calls) := by
  have harray := h.placed.array
  rw [hcontrol] at harray
  have hrunning := harray.none_running harray.point
  have hquiet : s.shared.view = s.shared.mgr := view_quiet (by rw [hcontrol]; rfl)
  have hpool : ∀ c ∈ calls s.calls, c.usesPool = false := by
    intro c hc
    obtain ⟨item, hitem, rfl⟩ := Multiset.mem_map.mp hc
    exact usesPool_queued
      ((h.placed.items item hitem).asio (h.placed.all_asio hrunning hfree item hitem))
  have hclears : Clears (s.shared.goto (.clearing s.shared.mgr.alloc.connMsgBuffer.items)) := by
    intro todo he
    cases he
    have hown := (Manager.owned_of_reach h.reach).owns
    rw [view, hquiet] at hown
    exact deleting_all hown
  refine @follows_enter s .clearBuffer .asio _ 0 hclears ?_
  rw [hquiet]
  exact if_pos ⟨hfree, hpool⟩

theorem follows_clearNext {s : State} (hclears : Clears s.shared) {todo : List MsgPtr}
    (hcontrol : s.shared.control = .clearing todo) :
    Follows s (clearNext s.shared todo) (0 + s.calls) := by
  have hdel := hclears todo hcontrol
  have hview : s.shared.view = s.shared.mgr.setAlloc s.shared.mgr.alloc.clearBuffer :=
    view_clears (by rw [hcontrol]; rfl)
  have hcalls : calls (0 + s.calls) = calls s.calls := by rw [Multiset.zero_add]
  cases todo with
  | nil =>
    refine follows_quiet (clears_quiet rfl) ?_ hcalls
    rw [hview, ← clearBuffer_deleted hdel]
    rfl
  | cons p todo =>
    refine follows_quiet ?_ ?_ hcalls
    · intro todo' he
      cases he
      exact deleting_delete hdel
    · rw [hview, ← clearBuffer_delete (hdel.pooled p List.mem_cons_self)]
      rfl

theorem follows_control {s : State} (h : Tracked s) {s' : Shared} {items : Multiset Item}
    (hnext : controlNext s.shared s.calls s.shared.control = some (s', items)) :
    Follows s s' (items + s.calls) := by
  have hcalls : calls (0 + s.calls) = calls s.calls := by rw [Multiset.zero_add]
  have hview : s.shared.control.clears = false → s.shared.view = s.shared.mgr := view_quiet
  cases hcontrol : s.shared.control with
  | start point =>
    rw [hcontrol] at hnext hview
    cases point with
    | reset | acceptor | listen | resize =>
      cases hnext
      exact follows_quiet (clears_quiet rfl) (hview rfl).symm hcalls
    | startAccept =>
      simp only [controlNext, startNext] at hnext
      obtain ⟨m, cs, hm, rfl, rfl⟩ := lift_some hnext
      refine follows_enter (e := .create) (clears_quiet rfl) ?_
      rw [hview rfl]
      exact hm
    | spawn i =>
      simp only [controlNext, startNext] at hnext
      split at hnext <;> cases hnext <;>
        exact follows_quiet (clears_quiet rfl) (hview rfl).symm hcalls
  | stop point =>
    rw [hcontrol] at hnext hview
    cases point with
    | cancel | close | iosStop =>
      cases hnext
      exact follows_quiet (clears_quiet rfl) (hview rfl).symm hcalls
    | disconnect =>
      simp only [controlNext, stopNext] at hnext
      obtain ⟨m, cs, hm, rfl, rfl⟩ := lift_some hnext
      refine follows_enter (e := .stop) (clears_quiet rfl) ?_
      rw [hview rfl]
      exact hm
    | join i =>
      simp only [controlNext, stopNext] at hnext
      repeat' split at hnext
      all_goals cases hnext
      all_goals exact follows_quiet (clears_quiet rfl) (hview rfl).symm hcalls
    | clearBuffer =>
      simp only [controlNext, stopNext] at hnext
      split at hnext <;> cases hnext
      rename_i hfree
      exact follows_clearBuffer h hcontrol hfree
  | clearing todo =>
    rw [hcontrol] at hnext
    cases hnext
    exact follows_clearNext h.clears hcontrol
  | idle | ended => rw [hcontrol] at hnext; cases hnext

/-- A step of `Manager` that leaves the allocator alone keeps what has been
deleted. -/
theorem clears_withMgr {s : Shared} {m : Manager.Shared} (h : Clears s)
    (halloc : s.control.clears = true → m.alloc = s.mgr.alloc) : Clears (s.withMgr m) := by
  intro todo hc
  have hc' : s.control = .clearing todo := hc
  rw [show (s.withMgr m).mgr.alloc = s.mgr.alloc from halloc (by rw [hc']; rfl)]
  exact h todo hc'

theorem follows_enters {s : State} (htracked : Tracked s) {e : Event} {s' : Shared}
    {items : Multiset Item} (h : enter s.shared s.calls e = some (s', items)) :
    Follows s s' (items + s.calls) := by
  have hclears := htracked.clears
  cases e with
  | create =>
    obtain ⟨m, cs, hm, rfl, rfl⟩ := lift_some h
    cases hm
    refine follows_enter (e := .create) (clears_withMgr hclears fun _ => rfl) ?_
    cases hc : s.shared.control.clears with
    | true => rw [view_clears hc, view_withMgr_clears hc]; rfl
    | false => rw [view_quiet hc, view_withMgr_quiet hc]; rfl
  | destroy sid =>
    obtain ⟨m, cs, hm, rfl, rfl⟩ := lift_some h
    simp only [Manager.enter] at hm
    split at hm <;> cases hm
    rename_i hfree
    refine follows_enter (e := .destroy sid) (clears_withMgr hclears fun _ => rfl) ?_
    cases hc : s.shared.control.clears with
    | true => rw [view_clears hc, view_withMgr_clears hc]; exact if_pos hfree
    | false => rw [view_quiet hc, view_withMgr_quiet hc]; exact if_pos hfree
  | writeToAll header =>
    simp only [enter] at h
    split at h
    · cases h
    rename_i hc
    have hc := Bool.eq_false_of_not_eq_true hc
    obtain ⟨m, cs, hm, rfl, rfl⟩ := lift_some h
    refine follows_enter (e := .writeToAll header) (clears_quiet hc) ?_
    rw [view_quiet hc, view_withMgr_quiet hc]
    exact hm
  | start | stop =>
    simp only [enter] at h
    split at h <;> cases h
    rename_i hidle
    refine follows_quiet (clears_quiet rfl) ?_ (by rw [Multiset.zero_add])
    rw [view_quiet (s := s.shared) (by rw [hidle]; rfl)]
    rfl
  | control throws =>
    cases throws with
    | false => exact follows_control htracked h
    | true =>
      simp only [enter] at h
      split at h <;> cases h
      rename_i hthrow
      refine follows_quiet (clears_quiet rfl) ?_ (by rw [Multiset.zero_add])
      have hc : s.shared.control.clears = false := by
        cases hcontrol : s.shared.control with
        | clearing todo => rw [hcontrol] at hthrow; cases hthrow
        | _ => rfl
      rw [view_quiet hc]
      rfl

theorem follows_next {s : State} (htracked : Tracked s) {item : Item} {rest : Multiset Item}
    (hs : s.calls = item ::ₘ rest) {o : Outcome} {s' : Shared} {items : Multiset Item}
    (h : next s.shared rest item o = some (s', items)) : Follows s s' (items + rest) := by
  have hclears := htracked.clears
  cases o with
  | picked =>
    simp only [next] at h
    split at h <;> cases h
    refine follows_quiet hclears rfl ?_
    rw [hs, Multiset.singleton_add, calls, calls, Multiset.map_cons, Multiset.map_cons]
  | runs o =>
    simp only [next] at h
    split at h
    · cases h
    split at h
    · cases h
    rename_i hrun _
    obtain ⟨m, cs, hm, rfl, rfl⟩ := lift_some h
    cases hc : s.shared.control.clears with
    | true =>
      have hop := htracked.placed.operation hc (hs ▸ Multiset.mem_cons_self item rest) hrun
      obtain ⟨halloc, hnext⟩ := next_operation hop hm
      refine follows_run hs (clears_withMgr hclears fun _ => halloc) (o := o) ?_
      rw [view_clears hc, view_withMgr_clears hc, hnext]
      show _ = some (m.setAlloc m.alloc.clearBuffer, cs)
      rw [halloc]
    | false =>
      refine follows_run hs (clears_quiet hc) (o := o) ?_
      rw [view_quiet hc, view_withMgr_quiet hc]
      exact hm

theorem tracked_step {s t : State} {a : Action} (h : Tracked s) (hkeeps : KeepsThreads s a)
    (hstep : step s a = some t) : Tracked t := by
  have hfollows : Follows s t.shared t.calls := by
    obtain ⟨t', items⟩ := t
    cases a with
    | enter e =>
      obtain ⟨new, hnew, ht⟩ := Program.step_enter hstep
      simp only at hnew ht
      exact ht ▸ follows_enters h hnew
    | run item o =>
      obtain ⟨rest, new, hs, hnew, ht⟩ := Program.step_run hstep
      simp only at hnew ht
      exact ht ▸ follows_next h hs hnew
  exact ⟨placed_step h.placed hkeeps hstep, hfollows.clears, h.reach.trans hfollows.reach⟩

theorem tracked_of_reach {n : UInt32} {s : State} (h : Reach step KeepsThreads (start n) s) :
    Tracked s :=
  h.invariant ⟨placed_start n, clears_quiet rfl, Reach.refl⟩
    fun _ _ _ _ hs hkeeps hstep => tracked_step hs hkeeps hstep

/-- **One run of `Manager`.** As long as `start` loses no thread, what the threads
do is what they do when `clear_buffer` is a single step that finds nobody else at
the buffer. -/
theorem reach_view {n : UInt32} {s : State} (h : Reach step KeepsThreads (start n) s) :
    Reach Manager.step always Manager.start (view s) := (tracked_of_reach h).reach

/-- Nobody is in `allocate_msg_buffer` or `dellocate_msg_buffer` while
`clear_buffer` runs; it deletes what exists, each message once, and no message
that a call or a queue holds; what the buffer can hand out exists. -/
structure Exclusive (s : State) : Prop where
  alone : s.shared.control.clears = true → ∀ item ∈ s.calls, item.call.usesPool = false
  deletes : ∀ todo, s.shared.control = .clearing todo →
    todo.Nodup ∧ ∀ p ∈ todo, (s.shared.mgr.alloc.objects p).isSome
  unique : (heldPtrs ⟨s.shared.mgr, calls s.calls⟩).Nodup
  held : ∀ p ∈ heldPtrs ⟨s.shared.mgr, calls s.calls⟩,
    (s.shared.mgr.alloc.objects p).isSome ∧ p ∉ s.shared.mgr.alloc.connMsgBuffer.items
  pooled : s.shared.control.clears = false → s.shared.mgr.alloc.connMsgBuffer.items.Nodup ∧
    ∀ p ∈ s.shared.mgr.alloc.connMsgBuffer.items, (s.shared.mgr.alloc.objects p).isSome
  once : s.shared.mgr.dead.Nodup

/-- What a call or a queue holds outlives `clear_buffer`. -/
theorem exclusive_clearing {s : State} (h : Tracked s) (hc : s.shared.control.clears = true) :
    Exclusive s := by
  have hview := view_clears hc
  have hown := (Manager.owned_of_reach h.reach).owns
  have hledger := (Manager.ledger_of_reach h.reach).once
  rw [view, hview] at hown hledger
  constructor
  · intro _ item hitem
    exact usesPool_queued ((h.placed.items item hitem).asio (h.placed.clearing hc item hitem))
  · intro todo htodo
    exact ⟨(h.clears todo htodo).nodup, (h.clears todo htodo).live⟩
  · exact (Multiset.nodup_add.mp hown.nodup).1
  · intro p hp
    have hlive : ((if p ∈ s.shared.mgr.alloc.connMsgBuffer.items then none
        else s.shared.mgr.alloc.objects p) : Option Msg).isSome :=
      hown.live p (Multiset.mem_add.mpr (Or.inl hp))
    split at hlive
    · cases hlive
    · rename_i hn
      exact ⟨hlive, hn⟩
  · intro hquiet
    rw [hc] at hquiet
    cases hquiet
  · exact hledger

theorem exclusive_quiet {s : State} (h : Tracked s) (hc : s.shared.control.clears = false) :
    Exclusive s := by
  have hview := view_quiet hc
  have hown := (Manager.owned_of_reach h.reach).owns
  have hledger := (Manager.ledger_of_reach h.reach).once
  rw [view, hview] at hown hledger
  constructor
  · intro hclears
    rw [hc] at hclears
    cases hclears
  · intro todo htodo
    rw [htodo] at hc
    cases hc
  · exact (Multiset.nodup_add.mp hown.nodup).1
  · exact fun p hp => ⟨hown.live p (Multiset.mem_add.mpr (Or.inl hp)), hown.not_pooled hp⟩
  · exact fun _ => ⟨(Multiset.nodup_add.mp hown.nodup).2.1,
      fun p hp => hown.live p (Multiset.mem_add.mpr (Or.inr hp))⟩
  · exact hledger

/-- **`clear_buffer` is alone**, whatever the application, the io threads and
the thread that starts and stops the server do in between, exceptions included,
as long as `start` never writes over a thread that has not been joined. -/
theorem clearing_exclusive (n : UInt32) (s : State) (h : Reach step KeepsThreads (start n) s) :
    Exclusive s := by
  have htracked := tracked_of_reach h
  cases hc : s.shared.control.clears with
  | true => exact exclusive_clearing htracked hc
  | false => exact exclusive_quiet htracked hc

/-! ## Two runs -/

/-- A handler left with asio is taken by an io thread and runs. -/
def handles (c : Call) : List Action :=
  [.run ⟨.asio, c⟩ .picked, .run ⟨.ioThread, c⟩ (.runs .go)]

def goesOn : Action := .enter (.control false)

/-- `start` with one io thread, and a client. -/
def connects : List Action :=
  .enter .start :: List.replicate 7 goesOn ++ handles (.accepting 0) ++
    [.run ⟨.ioThread, .starting 0⟩ (.runs .go)]

/-- `write_to_all` sends the message 0 to the only client, and the message goes
to the buffer. -/
def writesMessage (header : HDR) : List Action :=
  let task : Manager.Task := .writeToAll header 0 []
  [.enter (.writeToAll header),
    .run ⟨.application, .broadcast header [0]⟩ (.runs .go),
    .run ⟨.application, .allocate task header⟩ (.runs (.memory .unlimited)),
    .run ⟨.application, .inHand task ⟨0, 0⟩⟩ (.runs (.setBody .unlimited [1] 1)),
    .run ⟨.application, .inHand task ⟨0, 0⟩⟩ (.runs (.write 0)),
    .run ⟨.application, .chain 0 (.writeOnEmpty ⟨0, 0⟩) (some task)⟩ (.runs .go),
    .run ⟨.application, .chain 0 (.doWrite .write) (some task)⟩ (.runs .go),
    .run ⟨.application, .broadcast header []⟩ (.runs .go),
    .run ⟨.asio, .chain 0 (.asyncWrite ⟨.header, ⟨0, 0⟩⟩) none⟩ (.runs .go)] ++
  handles (.chain 0 (.handler .header false) none) ++
  [.run ⟨.asio, .chain 0 (.asyncWrite ⟨.body, ⟨0, 0⟩⟩) none⟩ (.runs .go)] ++
  handles (.chain 0 (.handler .body false) none) ++
  [.run ⟨.ioThread, .dellocate 0 ⟨0, 0⟩⟩ (.runs .go),
    .run ⟨.ioThread, .dellocateRetry 0 ⟨0, 0⟩⟩ (.runs .go),
    .run ⟨.ioThread, .dellocated 0 ⟨0, 0⟩⟩ (.runs .go),
    .run ⟨.ioThread, .chain 0 (.doWrite .handlerWriteBody) none⟩ (.runs .go)]

/-- A frame of the client, up to the call of `allocate_msg_buffer` in `ProcessMsg`. -/
def readsFrame (header : HDR) : List Action :=
  [.run ⟨.asio, .reading 0 (.asyncRead .header)⟩ (.runs (.received header)),
    .run ⟨.asio, .reading 0 (.handler .header false)⟩ .picked,
    .run ⟨.ioThread, .reading 0 (.handler .header false)⟩ (.runs (.memory .unlimited)),
    .run ⟨.asio, .reading 0 (.asyncRead (.body header.len))⟩ (.runs .go)] ++
  handles (.reading 0 (.handler .body false))

/-- A message that `write_to_all` has sent to the only client is back in the
buffer when the server is stopped, and the read of the client still waits. -/
theorem clearing_exclusive_one : ∃ s : State, s.shared.control = .clearing [0] ∧
    s.shared.mgr.alloc.connMsgBuffer.items = [0] ∧ Exclusive s := by
  have hrun : (exec (guarded step KeepsThreads) (start 1) (connects ++
      writesMessage ⟨1, 0, 0, 0, 0, 0⟩ ++ .enter .stop :: List.replicate 7 goesOn)).map
        (fun s => (s.shared.control, s.shared.mgr.alloc.connMsgBuffer.items)) =
          some (.clearing [0], [0]) := by
    decide +kernel
  obtain ⟨s, hs, hseen⟩ := Option.map_eq_some_iff.mp hrun
  obtain ⟨hcontrol, hitems⟩ := Prod.mk.inj hseen
  exact ⟨s, hcontrol, hitems, clearing_exclusive 1 s (Reach.of_exec_guarded _ hs)⟩

/-- **A thread that nobody joins.** The handler of a frame is about to call
`allocate_msg_buffer`. A `stop` ends by an exception in `connection_mgr::stop`,
`start` puts a new thread in the place of the one with the handler, and the
second `stop` joins the new thread only: `clear_buffer` has deleted the message
0, which the handler then gets from the buffer. -/
theorem clearing_overlaps : ∃ (s t : State) (header : HDR), Reach step always (start 1) s ∧
    s.shared.control = .clearing [] ∧
    ⟨.ioThread, .allocate (.processMsg 0) header⟩ ∈ s.calls ∧ ¬ Exclusive s ∧
    Reach step always s t ∧ t.shared.control = .clearing [] ∧
    ⟨.ioThread, .inHand (.processMsg 0) ⟨0, 1⟩⟩ ∈ t.calls ∧
    t.shared.mgr.alloc.objects 0 = none := by
  let header : HDR := ⟨1, 0, 0, 0, 0, 0⟩
  let acts : List Action := connects ++ writesMessage header ++ readsFrame header ++
    .enter .stop :: goesOn :: goesOn :: .enter (.control true) ::
    .enter .start :: List.replicate 7 goesOn ++ .enter .stop :: List.replicate 8 goesOn
  let hands : List Action :=
    [.run ⟨.ioThread, .allocate (.processMsg 0) header⟩ (.runs (.memory .unlimited)),
      .run ⟨.ioThread, .allocateRetry (.processMsg 0) header⟩ (.runs (.memory .unlimited))]
  have hrun : (exec step (start 1) acts).map (fun s => (s.shared.control,
      decide (⟨.ioThread, .allocate (.processMsg 0) header⟩ ∈ s.calls),
      (exec step s hands).map fun t => (t.shared.control,
        decide (⟨.ioThread, .inHand (.processMsg 0) ⟨0, 1⟩⟩ ∈ t.calls),
        (t.shared.mgr.alloc.objects 0).isSome))) =
      some (.clearing [], true, some (.clearing [], true, false)) := by
    decide +kernel
  obtain ⟨s, hs, hseen⟩ := Option.map_eq_some_iff.mp hrun
  simp only [Prod.mk.injEq, decide_eq_true_eq] at hseen
  obtain ⟨hcontrol, hcall, hseen⟩ := hseen
  obtain ⟨t, ht, hseen⟩ := Option.map_eq_some_iff.mp hseen
  simp only [Prod.mk.injEq, decide_eq_true_eq, Option.isSome_eq_false_iff,
    Option.isNone_iff_eq_none] at hseen
  refine ⟨s, t, header, Reach.of_exec acts hs, hcontrol, hcall, fun h => ?_,
    Reach.of_exec hands ht, hseen⟩
  have hclears : s.shared.control.clears = true := by rw [hcontrol]; rfl
  exact Bool.noConfusion (h.alone hclears _ hcall)

end AsioTcp.ClearBuffer
