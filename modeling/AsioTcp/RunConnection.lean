import AsioTcp.ReadLoop

/-!
# `RunConnection` against an echoing session

The client thread of `asio_client` sends a request and then sends back every
frame that it receives. Its socket calls block: a `write` puts its bytes on the
way in pieces and a `read` takes them off in pieces, and between two calls the
thread runs on alone. At the other end is one session of a `connection_mgr`,
which echoes what it receives, with its handlers run one at a time and every
allocation succeeding. The two byte streams between them are lists.

An `async_write` of the session sends in pieces as well, from the memory of the
message; its handler runs some time after the last piece. An `async_read` takes
its bytes when all of them have arrived.
-/

namespace AsioTcp

open SerialWrite

namespace ConnectionMgr

/-- The buffer that an `async_write` sends, as it is in memory now. -/
def buffer (w : ConnectionMgr) (op : WriteOp MsgPtr) : List BYTE :=
  match w.alloc.message op.msg with
  | some m => opBytes ⟨op.part, m⟩
  | none => []

/-- What `handler_write_body` does to the allocator: the front message goes back. -/
def giveBack (w : ConnectionMgr) (sid : Nat) : Part → Allocator
  | .header => w.alloc
  | .body =>
    match (w.sessions sid).write.session.msgQueue with
    | [] => w.alloc
    | msg :: _ => w.alloc.dellocateMsgBuffer msg

/-- The handler of a write that has succeeded, with the `do_write` it calls. -/
def handleWrite (w : ConnectionMgr) (sid : Nat) (op : WriteOp MsgPtr) : ConnectionMgr :=
  { w with alloc := w.giveBack sid op.part }.setSession sid
    { w.sessions sid with write := (w.sessions sid).write.complete op }

end ConnectionMgr

namespace RunConnection

/-- `request`, whose length is a `size_t`. -/
structure Request where
  bytes : List BYTE
  fits : bytes.length < UInt32.size

/-- `request_length`. -/
def Request.length (r : Request) : SizeT := UInt32.ofNat r.bytes.length

/-- What `RunConnection` passes to `write`. -/
inductive Buffer
  | header
  | request
  | headerRcv
  | buf
  deriving DecidableEq, Repr

/-- The blocking calls of `RunConnection`, and how far they are. -/
inductive Point
  | write (buffer : Buffer) (sent : Nat)
  /-- `read` to `header_rcv` -/
  | readHeader (got : List BYTE)
  /-- `read` to `buf` -/
  | readBody (got : Nat)
  | done
  deriving DecidableEq, Repr

/-- The variables of `RunConnection`. The last two fields record what has
happened; the code does not read them. -/
structure Client where
  point : Point
  header : HDR
  headerRcv : HDR
  buf : List BYTE
  nCount : Nat
  /-- an `assert` has failed -/
  failed : Bool
  /-- lengths and bodies of the frames that have been received -/
  received : List (SizeT × List BYTE)
  /-- bytes sent so far -/
  written : Nat

namespace Client

/-- At the first `write`. -/
def init (request : Request) : Client where
  point := .write .header 0
  header := ⟨request.length, 0, 0, 0, 0, 0⟩
  headerRcv := ⟨0, 0, 0, 0, 0, 0⟩
  buf := []
  nCount := 0
  failed := false
  received := []
  written := 0

def contents (request : Request) (c : Client) : Buffer → List BYTE
  | .header => c.header.toBytes
  | .request => request.bytes
  | .headerRcv => c.headerRcv.toBytes
  -- `transfer_exactly(header_rcv.len)`, but no more than there is
  | .buf => c.buf.take c.headerRcv.len.toNat

/-- The bytes that the current `write` still has to send. -/
def outgoing (request : Request) (c : Client) : List BYTE :=
  match c.point with
  | .write buffer sent => (c.contents request buffer).drop sent
  | _ => []

/-- How many bytes the current `read` still asks for. -/
def wanted (c : Client) : Nat :=
  match c.point with
  | .readHeader got => headerSize - got.length
  | .readBody got => c.headerRcv.len.toNat - got
  | _ => 0

def goto (c : Client) (point : Point) : Client := { c with point := point }

/-- The current `write` has sent `k` more bytes. -/
def sends (c : Client) (k : Nat) : Client :=
  match c.point with
  | .write buffer sent => { c with written := c.written + k }.goto (.write buffer (sent + k))
  | _ => c

/-- The current `read` has got these bytes. -/
def receives (c : Client) (bytes : List BYTE) : Client :=
  match c.point with
  | .readHeader got => c.goto (.readHeader (got ++ bytes))
  | .readBody got => { c with buf := c.buf ++ bytes }.goto (.readBody (got + bytes.length))
  | _ => c

def assert (c : Client) (p : Bool) : Client := { c with failed := c.failed || !p }

/-- The loop body, up to the first `read`. -/
def loop (c : Client) : Client :=
  { c with header := { c.header with packNum := c.header.packNum + 1 } }.goto (.readHeader [])

/-- The current call returns, and the thread runs on to the next one. -/
def returns (nTotalCnt : Nat) (c : Client) : Client :=
  match c.point with
  | .write .header _ => c.goto (.write .request 0)
  | .write .request _ => c.loop
  | .readHeader got =>
    let header := HDR.ofBytes (ConnMsg.overwrite c.headerRcv.toBytes got headerSize)
    ({ c with headerRcv := header }.assert (got.length == headerSize)).goto (.readBody 0)
  | .readBody got =>
    ({ c with received := c.received ++ [(c.headerRcv.len, c.buf)] }.assert
      (got == c.headerRcv.len.toNat)).goto (.write .headerRcv 0)
  | .write .headerRcv sent => (c.assert (sent == headerSize)).goto (.write .buf 0)
  | .write .buf sent =>
    let c' := { c with buf := [], nCount := c.nCount + 1 }.assert (sent == c.headerRcv.len.toNat)
    if c.nCount < nTotalCnt then c'.loop else c'.goto .done
  | .done => c

end Client

structure State where
  client : Client
  /-- on the way to the server -/
  up : List BYTE
  mgr : ConnectionMgr
  /-- how much of each outstanding `async_write` has been sent -/
  sent : WriteOp MsgPtr → Nat
  /-- on the way to the client -/
  down : List BYTE

inductive Action
  /-- the `write` of the client sends some bytes -/
  | clientSends (k : Nat)
  /-- the `read` of the client gets some bytes -/
  | clientReceives (k : Nat)
  | clientReturns
  /-- an `async_read` of the session is over -/
  | reads (op : ReadOp)
  | handlesRead (part : Part)
  /-- an `async_write` of the session sends some bytes -/
  | sends (op : WriteOp MsgPtr) (k : Nat)
  | handlesWrite (op : WriteOp MsgPtr)

/-- One client, which makes at most `nTotalCnt + 1` rounds, and session `sid`. -/
def step (sid nTotalCnt : Nat) (request : Request) (s : State) : Action → Option State
  | .clientSends k =>
    if 0 < k ∧ k ≤ (s.client.outgoing request).length then
      some { s with client := s.client.sends k
                    up := s.up ++ (s.client.outgoing request).take k }
    else none
  | .clientReceives k =>
    if 0 < k ∧ k ≤ s.client.wanted ∧ k ≤ s.down.length then
      some { s with client := s.client.receives (s.down.take k), down := s.down.drop k }
    else none
  | .clientReturns =>
    if s.client.point ≠ .done ∧ s.client.outgoing request = [] ∧ s.client.wanted = 0 then
      some { s with client := s.client.returns nTotalCnt }
    else none
  | .reads op =>
    if .asyncRead op ∈ (s.mgr.read sid).calls ∧ op.size ≤ s.up.length then
      some { s with mgr := s.mgr.setRead sid ((s.mgr.read sid).transfer op (s.up.take op.size) false)
                    up := s.up.drop op.size }
    else none
  | .handlesRead part =>
    if .handler part false ∈ (s.mgr.read sid).calls then
      match s.mgr.runHandler .unlimited sid part false with
      | .ok mgr => some { s with mgr := mgr }
      | .error _ => none
    else none
  | .sends op k =>
    if op ∈ (s.mgr.sessions sid).write.outstanding ∧ 0 < k ∧
        s.sent op + k ≤ (s.mgr.buffer op).length then
      some { s with sent := fun o => if o = op then s.sent op + k else s.sent o
                    down := s.down ++ ((s.mgr.buffer op).drop (s.sent op)).take k }
    else none
  | .handlesWrite op =>
    if op ∈ (s.mgr.sessions sid).write.outstanding ∧ s.sent op = (s.mgr.buffer op).length then
      some { s with mgr := s.mgr.handleWrite sid op
                    sent := fun o => if o = op then 0 else s.sent o }
    else none

/-- The session has been accepted and has issued its first read. -/
structure Accepted (sid : Nat) (mgr : ConnectionMgr) : Prop extends ReadLoop.Started sid mgr where
  writing : (mgr.sessions sid).write = .init

def start (mgr : ConnectionMgr) (request : Request) : State where
  client := .init request
  up := []
  mgr := mgr
  sent := fun _ => 0
  down := []

end RunConnection

end AsioTcp
