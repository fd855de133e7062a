import AsioTcp.ConnectionMgr

/-!
# One `connection_mgr` with all its threads

Any number of threads run the functions of the sessions, `write_to_all` and
calls from outside against one `connection_mgr`; a step is one locked section.
`write` and the write handlers are those of `SessionWrite`, but the pop of
`handler_write_body` is taken apart: it holds the write lock of its session
while `dellocate_msg_buffer` goes through its own two sections.

A message is known by a `Ref`, its address together with the number of the
`allocate_msg_buffer` call that gave it out, so that a pointer kept from before
is told from one to the same, recycled object.

Sessions are created, join, leave and are destroyed when nothing refers to them
any more. Who may join, and when the server stops, is decided elsewhere; here
it may happen at any time that the locks allow.
-/

namespace AsioTcp.Manager

open Interleaving

structure Ref where
  ptr : MsgPtr
  serial : Nat
  deriving DecidableEq, Repr

structure Session where
  write : WriteSide Ref
  /-- a `handler_write_body` holds `mutex_` and is giving back the front message -/
  locked : Bool
  /-- `header_` -/
  header : HDR
  /-- in `connection_list_` -/
  joined : Bool
  alive : Bool
  deriving DecidableEq

structure Shared where
  alloc : Allocator
  sessions : Nat → Session
  /-- the sessions created so far have the numbers below this one -/
  created : Nat
  /-- messages given out by `allocate_msg_buffer` so far -/
  serial : Nat
  /-- messages passed to `dellocate_msg_buffer` so far -/
  dead : List Ref

/-- On whose behalf a call works with a message. -/
inductive Task
  /-- `ProcessMsg` of this session -/
  | processMsg (sid : Nat)
  /-- `write_to_all`, at session `sid`, with others still to come -/
  | writeToAll (header : HDR) (sid : Nat) (todo : List Nat)
  /-- a caller from outside -/
  | application
  deriving DecidableEq

/-- A call in progress, or an operation left with asio. -/
inductive Call
  /-- a call of the write side; `task` goes on when `write` returns -/
  | chain (sid : Nat) (c : WriteCall Ref) (task : Option Task)
  /-- `handler_write_body`, at its call of `dellocate_msg_buffer` -/
  | dellocate (sid : Nat) (msg : Ref)
  /-- `dellocate_msg_buffer`, between its two locks -/
  | dellocateRetry (sid : Nat) (msg : Ref)
  /-- `handler_write_body`, about to pop -/
  | dellocated (sid : Nat) (msg : Ref)
  | reading (sid : Nat) (c : ReadCall)
  /-- the `async_accept` of a new session, or `handler_accept` before `join` -/
  | accepting (sid : Nat)
  /-- `session_tcp::start`, between `join` and `do_read` -/
  | starting (sid : Nat)
  | allocate (task : Task) (header : HDR)
  /-- `allocate_msg_buffer`, between its two locks -/
  | allocateRetry (task : Task) (header : HDR)
  /-- between `allocate_msg_buffer` and `write` -/
  | inHand (task : Task) (msg : Ref)
  /-- `write_to_all`, at the head of its loop -/
  | broadcast (header : HDR) (todo : List Nat)
  deriving DecidableEq

/-- What enters from outside. -/
inductive Event
  /-- `start_accept` creates a session -/
  | create
  /-- a thread calls `allocate_msg_buffer` for a message of its own -/
  | application (header : HDR)
  | writeToAll (header : HDR)
  /-- `connection_mgr::stop` -/
  | stop
  | clearBuffer
  /-- the last reference to a session is gone -/
  | destroy (sid : Nat)

/-- What the environment decides at a step. -/
inductive Outcome
  | go
  | error
  | refused
  | received (header : HDR)
  | memory (mem : Memory)
  | setBody (mem : Memory) (data : List BYTE) (n : SizeT)
  | write (sid : Nat)

namespace Call

/-- The session that the call keeps alive. -/
def session : Call → Option Nat
  | .chain sid _ _ | .dellocate sid _ | .dellocateRetry sid _ | .dellocated sid _ => some sid
  | .reading sid _ | .accepting sid | .starting sid => some sid
  | .allocate (.processMsg sid) _ | .allocateRetry (.processMsg sid) _ => some sid
  | .inHand (.processMsg sid) _ => some sid
  | _ => none

/-- The call holds the read lock of `connection_mgr::mutex_`. -/
def holdsRegistry : Call → Bool
  | .chain _ _ (some (.writeToAll _ _ _)) => true
  | .allocate (.writeToAll _ _ _) _ | .allocateRetry (.writeToAll _ _ _) _ => true
  | .inHand (.writeToAll _ _ _) _ => true
  | .broadcast _ _ => true
  | _ => false

/-- The call is inside `allocate_msg_buffer` or `dellocate_msg_buffer`. -/
def usesPool : Call → Bool
  | .allocate _ _ | .allocateRetry _ _ | .dellocate _ _ | .dellocateRetry _ _ => true
  | _ => false

end Call

def RegistryFree (calls : Multiset Call) : Prop := ∀ c ∈ calls, c.holdsRegistry = false

instance (calls : Multiset Call) : Decidable (RegistryFree calls) :=
  inferInstanceAs (Decidable (∀ c ∈ calls, c.holdsRegistry = false))

/-- What goes on when `write` returns. -/
def Task.resume : Task → Multiset Call
  | .processMsg sid => {.reading sid (.asyncRead .header)}
  | .writeToAll header _ todo => {.broadcast header todo}
  | .application => 0

/-- The session that the message is for may be this one. -/
def Task.MayWrite : Task → Nat → Prop
  | .processMsg sid, sid' => sid' = sid
  | .writeToAll _ sid _, sid' => sid' = sid
  | .application, _ => True

instance : ∀ (t : Task) (sid : Nat), Decidable (t.MayWrite sid)
  | .processMsg sid, sid' => inferInstanceAs (Decidable (sid' = sid))
  | .writeToAll _ sid _, sid' => inferInstanceAs (Decidable (sid' = sid))
  | .application, _ => isTrue trivial

namespace Session

def init : Session := ⟨.init, false, ⟨0, 0, 0, 0, 0, 0⟩, false, false⟩

def withWrite (w : WriteSide Ref) (x : Session) : Session := { x with write := w }

def withLocked (locked : Bool) (x : Session) : Session := { x with locked := locked }

def withHeader (header : HDR) (x : Session) : Session := { x with header := header }

def withJoined (joined : Bool) (x : Session) : Session := { x with joined := joined }

def withAlive (alive : Bool) (x : Session) : Session := { x with alive := alive }

end Session

namespace Shared

def init : Shared := ⟨.init, fun _ => .init, 0, 0, []⟩

def update (s : Shared) (sid : Nat) (f : Session → Session) : Shared :=
  { s with sessions := fun i => if i = sid then f (s.sessions i) else s.sessions i }

def setWrite (s : Shared) (sid : Nat) (w : WriteSide Ref) : Shared :=
  s.update sid (Session.withWrite w)

def leave (s : Shared) (sid : Nat) : Shared := s.update sid (Session.withJoined false)

/-- A new session. -/
def create (s : Shared) : Shared :=
  { s.update s.created (Session.withAlive true) with created := s.created + 1 }

/-- `handler_write_body` takes the lock and calls `dellocate_msg_buffer(msg)`. -/
def lock (s : Shared) (sid : Nat) (msg : Ref) : Shared :=
  { s.update sid (Session.withLocked true) with dead := msg :: s.dead }

/-- `handler_write_body` pops and releases the lock. -/
def pop (s : Shared) (sid : Nat) : Shared :=
  (s.setWrite sid (s.sessions sid).write.handlerWriteBody).update sid (Session.withLocked false)

def setAlloc (s : Shared) (a : Allocator) : Shared := { s with alloc := a }

/-- `connection_list_`. -/
def connectionList (s : Shared) : List Nat :=
  (List.range s.created).filter fun i => (s.sessions i).joined

end Shared

/-- A section of `allocate_msg_buffer` is over. -/
def handOut (s : Shared) (task : Task) (header : HDR) :
    Allocator × Allocated → Shared × Multiset Call
  | (a, .got p) =>
    ({ s.setAlloc a with serial := s.serial + 1 }, {.inHand task ⟨p, s.serial⟩})
  | (a, .retry) => (s.setAlloc a, {.allocateRetry task header})
  | (a, .badAlloc) => (s.setAlloc a, 0)

/-- The call has to wait for the write lock of its session. -/
def waits : WriteCall Ref → Bool
  | .doWrite _ => true
  | .handler _ error => !error
  | _ => false

/-- The task stays with `write` until it returns. -/
def carried : WriteCall Ref → Option Task → Option Task
  | .writeOnEmpty _, task => task
  | _, _ => none

def resumed : WriteCall Ref → Option Task → Multiset Call
  | .writeOnEmpty _, _ => 0
  | _, some task => task.resume
  | _, none => 0

def Outcome.failed : Outcome → Bool
  | .error => true
  | _ => false

/-- A step of the write side of session `sid`. -/
def chainNext (s : Shared) (rest : Multiset Call) (sid : Nat) (c : WriteCall Ref)
    (task : Option Task) (o : Outcome) : Option (Shared × Multiset Call) :=
  let x := s.sessions sid
  if waits c && x.locked then none
  else
    match c, x.write.msgQueue with
    | .handler _ true, _ => if RegistryFree rest then some (s.leave sid, 0) else none
    | .handler .body false, msg :: _ =>
      some (s.lock sid msg, {.dellocate sid msg})
    | c, _ =>
      let r := SessionWrite.next x.write c o.failed
      some (s.setWrite sid r.1, r.2.map (Call.chain sid · (carried c task)) + resumed c task)

/-- A step of the read side of session `sid`. -/
def readNext (s : Shared) (rest : Multiset Call) (sid : Nat) (c : ReadCall) (o : Outcome) :
    Option (Shared × Multiset Call) :=
  match c, o with
  | .asyncRead op, .error => some (s, {.reading sid (.handler op.part true)})
  | .asyncRead .header, .received header =>
    some (s.update sid (Session.withHeader header), {.reading sid (.handler .header false)})
  | .asyncRead (.body _), .go => some (s, {.reading sid (.handler .body false)})
  | .handler _ true, _ => if RegistryFree rest then some (s.leave sid, 0) else none
  | .handler .header false, .memory mem =>
    let n := (s.sessions sid).header.len
    -- if `prepare` throws, the handler is over
    some (s, if mem.prepare n then {.reading sid (.asyncRead (.body n))} else 0)
  | .handler .body false, .go =>
    some (s, {.allocate (.processMsg sid) (s.sessions sid).header})
  | _, _ => none

/-- A step of a call that has a message in hand. -/
def inHandNext (s : Shared) (task : Task) (msg : Ref) : Outcome → Option (Shared × Multiset Call)
  | .setBody mem data n =>
    let r := s.alloc.setBody mem msg.ptr data n
    -- if `set_body` throws, the caller loses the pointer
    some (s.setAlloc r.1, if r.2 then 0 else {.inHand task msg})
  | .write sid =>
    let x := s.sessions sid
    if task.MayWrite sid ∧ x.alive = true ∧ x.locked = false then
      let r := x.write.write msg
      some (s.setWrite sid r.1, {.chain sid r.2 (some task)})
    else none
  | _ => none

def next (s : Shared) (rest : Multiset Call) : Call → Outcome → Option (Shared × Multiset Call)
  | .chain sid c task, o => chainNext s rest sid c task o
  | .dellocate sid msg, _ =>
    match s.alloc.dellocateRead msg.ptr with
    | (a, true) => some (s.setAlloc a, {.dellocateRetry sid msg})
    | (a, false) => some (s.setAlloc a, {.dellocated sid msg})
  | .dellocateRetry sid msg, _ =>
    some (s.setAlloc (s.alloc.dellocateWrite msg.ptr), {.dellocated sid msg})
  | .dellocated sid _, _ =>
    some (s.pop sid, {.chain sid (.doWrite .handlerWriteBody) none})
  | .reading sid c, o => readNext s rest sid c o
  | .accepting sid, .go =>
    if RegistryFree rest then
      some (s.update sid (Session.withJoined true), {.starting sid})
    else none
  | .accepting sid, .error => if RegistryFree rest then some (s.leave sid, 0) else none
  | .accepting _, .refused => some (s, 0)
  | .starting sid, _ => some (s, {.reading sid (.asyncRead .header)})
  | .allocate task header, .memory mem =>
    some (handOut s task header (s.alloc.allocateRead mem header))
  | .allocateRetry task header, .memory mem =>
    some (handOut s task header (s.alloc.allocateWrite mem header))
  | .inHand task msg, o => inHandNext s task msg o
  | .broadcast _ [], _ => some (s, 0)
  | .broadcast header (sid :: todo), _ => some (s, {.allocate (.writeToAll header sid todo) header})
  | _, _ => none

def enter (s : Shared) (calls : Multiset Call) : Event → Option (Shared × Multiset Call)
  | .create =>
    some (s.create, {.accepting s.created})
  | .application header => some (s, {.allocate .application header})
  | .writeToAll header => some (s, {.broadcast header s.connectionList})
  | .stop =>
    if RegistryFree calls then
      some ({ s with sessions := fun i => (s.sessions i).withJoined false }, 0)
    else none
  | .clearBuffer =>
    if RegistryFree calls ∧ ∀ c ∈ calls, c.usesPool = false then
      some (s.setAlloc s.alloc.clearBuffer, 0)
    else none
  | .destroy sid =>
    if (s.sessions sid).alive = true ∧ (s.sessions sid).joined = false ∧
        ∀ c ∈ calls, c.session ≠ some sid then
      some (s.update sid (Session.withAlive false), 0)
    else none

def program : Program Shared Call Event Outcome := ⟨enter, next⟩

abbrev State := Config Shared Call
abbrev Action := Interleaving.Action Call Event Outcome

def step : State → Action → Option State := program.step

def start : State := ⟨.init, 0⟩

end AsioTcp.Manager
