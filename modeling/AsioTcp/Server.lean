import AsioTcp.Allocator
import AsioTcp.SessionWrite

/-!
# The life cycle of `server_tcp`

One thread calls `start` and `stop` in turn, the io threads run the handlers
that `ios_` has for them, and the peers connect, send and go away as they like.
A step is one locked section, one call into asio or one call of a function
that can throw.

Of asio: `cancel` and `close` complete the pending accepts with an error,
`async_accept` on a closed acceptor completes with an error, and
`io_service::stop` leaves the handlers that no thread has begun in the queue,
where they wait for the next `run`. A handler that throws ends the process.

What the sessions do with their messages is in `Manager`; here a session is its
socket, its id and its reads and writes as far as their handlers touch the
registry or the message buffer. A handler takes or gives back one message, in
one step.
-/

namespace AsioTcp.Server

open Interleaving

/-- A `session_tcp`. -/
structure Client where
  clientId : UInt32
  /-- `socket_` has been closed -/
  closed : Bool
  deriving DecidableEq, Repr

/-- The calls of `start` and `stop` alternate. -/
inductive Phase
  | stopped
  | busy
  | started
  deriving DecidableEq, Repr

structure ServerTcp where
  maxConn : UInt32
  ioThreadNum : UInt32
  /-- `acceptor_` is open -/
  acceptorOpen : Bool
  /-- the sessions that wait in an `async_accept` -/
  accepting : List Nat
  /-- `ios_.stopped()` -/
  stopped : Bool
  /-- which elements of `io_thread_array_` point to a thread -/
  ioThreadArray : List Bool
  /-- threads in `io_service::run` -/
  running : Nat
  connectionList : List Nat
  clients : Nat → Client
  /-- the sessions created so far have the numbers below this one -/
  created : Nat
  currClientId : UInt32
  alloc : Allocator
  phase : Phase
  /-- the process has ended by an exception of a handler or a bad access -/
  terminated : Bool
  /-- `session_tcp::start` came to its `assert(false)` -/
  asserted : Bool
  /-- `async_accept` calls of `server_tcp::start` so far -/
  starts : Nat
  /-- the sessions that have joined, in order -/
  admissions : List Nat
  /-- the sessions that `leave` has been called for -/
  left : List Nat

/-- `server_tcp::start`, before the line that it names. -/
inductive StartPoint
  /-- `ios_.reset()` -/
  | reset
  /-- `acceptor_.open` -/
  | acceptor
  /-- `set_option`, `bind` and `listen` -/
  | listen
  /-- `curr_client_id_ = 1` and `start_accept()` -/
  | startAccept
  /-- `io_thread_array_.resize` -/
  | resize
  /-- the loop that creates the threads -/
  | spawn (i : Nat)
  deriving DecidableEq, Repr

/-- `server_tcp::stop`, before the line that it names. -/
inductive StopPoint
  | cancel
  | close
  /-- `conn_mgr_.stop()` -/
  | disconnect
  /-- `ios_.stop()` -/
  | iosStop
  /-- the loop that joins the threads -/
  | join (i : Nat)
  /-- `conn_mgr_.clear_buffer()` -/
  | clearBuffer
  deriving DecidableEq, Repr

/-- A call in progress, or an operation or a handler left with asio. -/
inductive Call
  /-- `handler_accept` in the queue of `ios_` -/
  | accepted (sid : Nat) (error : Bool)
  /-- `handler_accept`, at its beginning -/
  | handlerAccept (sid : Nat) (error : Bool)
  /-- `can_join` has returned true -/
  | admitted (sid : Nat)
  /-- `curr_client_id_++` has read this value and is to write the next one -/
  | counted (sid : Nat) (id : UInt32)
  /-- `session_tcp::start`, about to read the endpoints -/
  | starting (sid : Nat)
  /-- `session_tcp::start`, at `join` -/
  | joining (sid : Nat)
  /-- `session_tcp::start`, at `do_read` -/
  | joined (sid : Nat)
  /-- `handler_accept`, at `start_accept` -/
  | startAccept
  | asyncRead (sid : Nat) (part : Part)
  /-- a read handler in the queue of `ios_` -/
  | readDone (sid : Nat) (part : Part) (error : Bool)
  | handlerRead (sid : Nat) (part : Part) (error : Bool)
  /-- a handler of a body write, or of a failed write, in the queue of `ios_` -/
  | writeDone (sid : Nat) (error : Bool)
  | handlerWrite (sid : Nat) (error : Bool)
  | start (point : StartPoint)
  | stop (point : StopPoint)
  deriving DecidableEq, Repr

inductive Event
  | start
  | stop
  /-- a pending accept completes -/
  | accept (sid : Nat) (error : Bool)
  /-- an `async_write` of the session fails, or has written a body -/
  | written (sid : Nat) (error : Bool)

/-- How `connection_mgr::stop` fares with one session. -/
inductive Disconnect
  | closed
  /-- `shutdown` reports an error: the session is skipped -/
  | shutdownFailed
  /-- `cancel` or `close` throws -/
  | threw
  deriving DecidableEq, Repr

/-- What the environment decides at a step. -/
inductive Outcome
  | go
  /-- an operation completes with an error -/
  | error
  | throws
  | disconnects (f : Nat → Disconnect)
  /-- `ProcessMsg` calls `allocate_msg_buffer(header)` -/
  | allocates (mem : Memory) (header : HDR)
  /-- `handler_write_body` calls `dellocate_msg_buffer(msg)` -/
  | dellocates (msg : MsgPtr)

/-- The call has a thread of `io_service::run`. -/
def Call.onThread : Call → Bool
  | .handlerAccept _ _ | .admitted _ | .counted _ _ => true
  | .starting _ | .joining _ | .joined _ | .startAccept => true
  | .handlerRead _ _ _ | .handlerWrite _ _ => true
  | _ => false

namespace ServerTcp

/-- The constructor. -/
def init (maxConn ioThreadNum : UInt32) : ServerTcp where
  maxConn := maxConn
  ioThreadNum := ioThreadNum
  acceptorOpen := false
  accepting := []
  stopped := false
  ioThreadArray := []
  running := 0
  connectionList := []
  clients := fun _ => ⟨0, false⟩
  created := 0
  currClientId := 1
  alloc := .init
  phase := .stopped
  terminated := false
  asserted := false
  starts := 0
  admissions := []
  left := []

/-- A thread of `io_service::run` is free to run a handler. -/
def ThreadFree (s : ServerTcp) (rest : Multiset Call) : Prop :=
  s.stopped = false ∧ rest.countP (fun c => c.onThread = true) < s.running

instance (s : ServerTcp) (rest : Multiset Call) : Decidable (s.ThreadFree rest) :=
  inferInstanceAs (Decidable (_ ∧ _))

/-! ## `connection_mgr` -/

def size (s : ServerTcp) : Nat := s.connectionList.length

def canJoin (s : ServerTcp) : Bool := !decide (s.maxConn.toNat < s.size)

def insert (s : ServerTcp) (sid : Nat) : ServerTcp :=
  { s with connectionList := s.connectionList.insert sid, admissions := s.admissions ++ [sid] }

def join (s : ServerTcp) (sid : Nat) : ServerTcp × Bool :=
  if s.maxConn.toNat < s.size then (s, false)
  else (s.insert sid, true)

def leave (s : ServerTcp) (sid : Nat) : ServerTcp :=
  { s with connectionList := s.connectionList.erase sid, left := sid :: s.left }

/-- The order of the list is that of the pointers, which is any order. -/
def find (s : ServerTcp) (clientid : UInt32) : Option Nat :=
  if clientid = 0 then none
  else s.connectionList.find? fun sid => (s.clients sid).clientId == clientid

def setClient (s : ServerTcp) (sid : Nat) (c : Client) : ServerTcp :=
  { s with clients := fun i => if i = sid then c else s.clients i }

/-- The loop of `connection_mgr::stop`; the flag says that it threw. -/
def disconnect (f : Nat → Disconnect) : List Nat → ServerTcp → ServerTcp × Bool
  | [], s => ({ s with connectionList := [] }, false)
  | sid :: rest, s =>
    match f sid with
    | .closed => disconnect f rest (s.setClient sid { s.clients sid with closed := true })
    | .shutdownFailed => disconnect f rest s
    | .threw => (s, true)

/-! ## `server_tcp` -/

/-- The rest of `new_session->start(curr_client_id_++)`, once `id` has been
read, up to the first line of `start`. -/
def assignId (s : ServerTcp) (sid : Nat) (id : UInt32) : ServerTcp :=
  { s.setClient sid { s.clients sid with clientId := id } with currClientId := id + 1 }

/-- `session_tcp::create`; then `accepting` are pending. -/
def create (s : ServerTcp) (accepting : List Nat) : ServerTcp :=
  { s.setClient s.created ⟨0, false⟩ with created := s.created + 1, accepting := accepting }

/-- `start_accept`: on a closed acceptor the handler is queued at once. -/
def startAccept (s : ServerTcp) : ServerTcp × Multiset Call :=
  if s.acceptorOpen then (s.create (s.created :: s.accepting), 0)
  else (s.create s.accepting, {.accepted s.created true})

/-- A pending accept completes. -/
def takeAccept (s : ServerTcp) (sid : Nat) : ServerTcp :=
  { s with accepting := s.accepting.erase sid }

/-- `curr_client_id_ = 1`, before the `start_accept` of `start`. -/
def resetId (s : ServerTcp) : ServerTcp := { s with currClientId := 1, starts := s.starts + 1 }

/-- `acceptor_.cancel()` and `close()`: the pending accepts complete with an error. -/
def cancelAccepts (s : ServerTcp) : ServerTcp × Multiset Call :=
  ({ s with accepting := [] }, (s.accepting.map (Call.accepted · true) : List Call))

def failAssert (s : ServerTcp) : ServerTcp := { s with asserted := true }

def terminate (s : ServerTcp) : ServerTcp := { s with terminated := true }

def setAlloc (s : ServerTcp) (alloc : Allocator) : ServerTcp := { s with alloc := alloc }

/-- `start` or `stop` returns, or ends by an exception. -/
def enterPhase (s : ServerTcp) (phase : Phase) : ServerTcp := { s with phase := phase }

end ServerTcp

/-- `handler_accept` and the `session_tcp::start` in it. -/
def acceptNext (s : ServerTcp) (rest : Multiset Call) :
    Call → Outcome → Option (ServerTcp × Multiset Call)
  | .accepted sid error, _ =>
    if s.ThreadFree rest then some (s, {.handlerAccept sid error}) else none
  -- nothing here is in a `try`: a lock, `output_console`, `remote_endpoint` and
  -- `local_endpoint`, the insertion of `join`, `async_read` and `async_accept`,
  -- `new session_tcp`; where `NDEBUG` is not defined, `assert(false)` ends the
  -- process too
  | .handlerAccept _ _, .throws | .starting _, .throws | .joining _, .throws
  | .joined _, .throws | .startAccept, .throws => some (s.terminate, 0)
  | .handlerAccept sid true, _ => some (s.leave sid, {.startAccept})
  | .handlerAccept sid false, _ => some (s, if s.canJoin then {.admitted sid} else {.startAccept})
  | .admitted sid, _ => some (s, {.counted sid s.currClientId})
  | .counted sid id, _ => some (s.assignId sid id, {.starting sid})
  | .starting sid, .go => some (s, {.joining sid})
  | .joining sid, _ =>
    match s.join sid with
    | (s', true) => some (s', {.joined sid})
    -- where `NDEBUG` is defined
    | (s', false) => some (s'.failAssert, {.startAccept})
  | .joined sid, _ => some (s, {.asyncRead sid .header, .startAccept})
  | .startAccept, .go => some s.startAccept
  | _, _ => none

/-- The reads of a session, and its writes. -/
def sessionNext (s : ServerTcp) (rest : Multiset Call) :
    Call → Outcome → Option (ServerTcp × Multiset Call)
  | .asyncRead sid part, .go =>
    if (s.clients sid).closed then none else some (s, {.readDone sid part false})
  | .asyncRead sid part, .error => some (s, {.readDone sid part true})
  | .readDone sid part error, _ =>
    if s.ThreadFree rest then some (s, {.handlerRead sid part error}) else none
  | .handlerRead sid _ true, _ => some (s.leave sid, 0)
  | .handlerRead sid .header false, .go => some (s, {.asyncRead sid .body})
  | .handlerRead sid .body false, .allocates mem header =>
    match s.alloc.allocateMsgBuffer mem header with
    | (alloc, .got _) => some (s.setAlloc alloc, {.asyncRead sid .header})
    | _ => some (s.terminate, 0)
  -- an allocation throws
  | .handlerRead _ _ false, .throws => some (s.terminate, 0)
  | .writeDone sid error, _ =>
    if s.ThreadFree rest then some (s, {.handlerWrite sid error}) else none
  | .handlerWrite sid true, _ => some (s.leave sid, 0)
  | .handlerWrite _ false, .dellocates msg => some (s.setAlloc (s.alloc.dellocateMsgBuffer msg), 0)
  | _, _ => none

/-- `server_tcp::start`. -/
def startNext (s : ServerTcp) : StartPoint → Outcome → Option (ServerTcp × Multiset Call)
  | .reset, _ => some ({ s with stopped := false }, {.start .acceptor})
  | .acceptor, .go =>
    -- `open` throws on an acceptor that is open
    if s.acceptorOpen then some (s.enterPhase .started, 0)
    else some ({ s with acceptorOpen := true }, {.start .listen})
  | .listen, .go => some (s, {.start .startAccept})
  | .startAccept, .go =>
    let r := s.resetId.startAccept
    some (r.1, .start .resize ::ₘ r.2)
  | .resize, .go =>
    let n := s.ioThreadNum.toNat
    some ({ s with ioThreadArray := (s.ioThreadArray ++ List.replicate n false).take n },
      {.start (.spawn 0)})
  | .spawn i, .go =>
    if i < s.ioThreadNum.toNat then
      some ({ s with ioThreadArray := s.ioThreadArray.set i true, running := s.running + 1 },
        {.start (.spawn (i + 1))})
    else some (s.enterPhase .started, 0)
  | _, .throws => some (s.enterPhase .started, 0)
  | _, _ => none

/-- `server_tcp::stop`. -/
def stopNext (s : ServerTcp) (rest : Multiset Call) :
    StopPoint → Outcome → Option (ServerTcp × Multiset Call)
  | .cancel, _ =>
    -- `cancel` throws on an acceptor that is not open
    if s.acceptorOpen then some (s.cancelAccepts.1, .stop .close ::ₘ s.cancelAccepts.2)
    else some (s.enterPhase .stopped, 0)
  | .close, _ =>
    some ({ s.cancelAccepts.1 with acceptorOpen := false },
      .stop .disconnect ::ₘ s.cancelAccepts.2)
  | .disconnect, .disconnects f =>
    match ServerTcp.disconnect f s.connectionList s with
    | (s', true) => some (s'.enterPhase .stopped, 0)
    | (s', false) => some (s', {.stop .iosStop})
  | .iosStop, _ => some ({ s with stopped := true }, {.stop (.join 0)})
  | .join i, _ =>
    if i < s.ioThreadNum.toNat then
      match s.ioThreadArray[i]? with
      | some true =>
        -- the thread must have left `run`, so the others have the handlers that run
        if rest.countP (fun c => c.onThread = true) < s.running then
          some ({ s with ioThreadArray := s.ioThreadArray.set i false, running := s.running - 1 },
            {.stop (.join (i + 1))})
        else none
      | _ => some (s.terminate, 0)
    else some ({ s with ioThreadArray := [] }, {.stop .clearBuffer})
  | .clearBuffer, _ => some ((s.setAlloc s.alloc.clearBuffer).enterPhase .stopped, 0)
  | _, _ => none

def next (s : ServerTcp) (rest : Multiset Call) (c : Call) (o : Outcome) :
    Option (ServerTcp × Multiset Call) :=
  match c with
  | .start point => startNext s point o
  | .stop point => stopNext s rest point o
  | .asyncRead _ _ | .readDone _ _ _ | .handlerRead _ _ _ => sessionNext s rest c o
  | .writeDone _ _ | .handlerWrite _ _ => sessionNext s rest c o
  | _ => acceptNext s rest c o

def enter (s : ServerTcp) : Event → Option (ServerTcp × Multiset Call)
  | .start => if s.phase = .stopped then some (s.enterPhase .busy, {.start .reset}) else none
  | .stop => if s.phase = .started then some (s.enterPhase .busy, {.stop .cancel}) else none
  | .accept sid error =>
    if sid ∈ s.accepting then
      some (s.takeAccept sid, {.accepted sid error})
    else none
  | .written sid error => if sid < s.created then some (s, {.writeDone sid error}) else none

/-- Nothing happens once the process has ended. -/
def program : Program ServerTcp Call Event Outcome where
  enter s _ e := if s.terminated then none else enter s e
  next s rest c o := if s.terminated then none else next s rest c o

abbrev State := Config ServerTcp Call
abbrev Action := Interleaving.Action Call Event Outcome

def step : State → Action → Option State := program.step

def start (maxConn ioThreadNum : UInt32) : State := ⟨.init maxConn ioThreadNum, 0⟩

end AsioTcp.Server
