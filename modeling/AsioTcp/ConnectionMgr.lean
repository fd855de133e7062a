import AsioTcp.Allocator
import AsioTcp.SerialWrite

/-!
# `connection_mgr` and its sessions, one call at a time

The state of a `connection_mgr` with all its sessions, and the functions of the
read side that work on it: `do_read`, the two read handlers, `ProcessMsg`,
`write_to_all` and `leave`. Every function is one step here; what happens
between the locked sections when several threads are at work is the subject of
`Manager`. Nothing in these handlers catches an exception, so a function that
may throw returns `Except`.
-/

namespace AsioTcp

open SerialWrite

/-- An `async_read`: of the header, or of a body with `transfer_exactly(n)`. -/
inductive ReadOp
  | header
  | body (n : SizeT)
  deriving DecidableEq, Repr

def ReadOp.part : ReadOp → Part
  | .header => .header
  | .body _ => .body

/-- The bytes that an `async_read` asks for. -/
def ReadOp.size : ReadOp → Nat
  | .header => headerSize
  | .body n => n.toNat

/-- An `async_read` left with asio, or its completion handler, waiting. -/
inductive ReadCall
  | asyncRead (op : ReadOp)
  | handler (part : Part) (error : Bool)
  deriving DecidableEq, Repr

/-- What the read handlers of a session use. The last two fields record what
they have done; no function reads them. -/
structure ReadSide where
  header : HDR
  buf : List BYTE
  calls : List ReadCall
  /-- messages given to `ProcessMsg_business`, in order -/
  business : List ConnMsg
  /-- calls of `leave` from the read handlers -/
  leaves : Nat
  deriving DecidableEq

namespace ReadSide

/-- After the constructor, which leaves `header_` indeterminate. -/
def init (header : HDR) : ReadSide := ⟨header, [], [], [], 0⟩

def issue (s : ReadSide) (op : ReadOp) : ReadSide :=
  { s with calls := s.calls ++ [.asyncRead op] }

/-- A read handler starts to run. -/
def take (s : ReadSide) (part : Part) (error : Bool) : ReadSide :=
  { s with calls := s.calls.erase (ReadCall.handler part error) }

/-- The read `op` is over: these bytes have gone to `header_` or to `buf_`,
and the handler is to be called. -/
def transfer (s : ReadSide) (op : ReadOp) (bytes : List BYTE) (error : Bool) : ReadSide :=
  let s := { s with calls := s.calls.erase (ReadCall.asyncRead op) ++ [ReadCall.handler op.part error] }
  match op with
  | .header => { s with header := .ofBytes (ConnMsg.overwrite s.header.toBytes bytes headerSize) }
  | .body _ => { s with buf := s.buf ++ bytes }

/-- After `ProcessMsg` has handed on `m` and the next header read has been
issued. -/
def delivered (s : ReadSide) (m : ConnMsg) : ReadSide :=
  { s with buf := [], business := s.business ++ [m] }.issue .header

end ReadSide

structure SessionTcp where
  read : ReadSide
  write : SerialSession MsgPtr

structure ConnectionMgr where
  alloc : Allocator
  /-- every session, registered or not -/
  sessions : Nat → SessionTcp
  connectionList : List Nat

namespace ConnectionMgr

def setSession (w : ConnectionMgr) (sid : Nat) (s : SessionTcp) : ConnectionMgr :=
  { w with sessions := fun i => if i = sid then s else w.sessions i }

def read (w : ConnectionMgr) (sid : Nat) : ReadSide := (w.sessions sid).read

def setRead (w : ConnectionMgr) (sid : Nat) (s : ReadSide) : ConnectionMgr :=
  w.setSession sid { w.sessions sid with read := s }

def leave (w : ConnectionMgr) (outcomer : Nat) : ConnectionMgr :=
  { w with connectionList := w.connectionList.filter fun i => i ≠ outcomer }

/-- `leave` from an error branch of a read handler. -/
def readLeave (w : ConnectionMgr) (sid : Nat) : ConnectionMgr :=
  (w.setRead sid { w.read sid with leaves := (w.read sid).leaves + 1 }).leave sid

/-- `session_tcp::write`. -/
def write (w : ConnectionMgr) (sid : Nat) (msg : MsgPtr) : ConnectionMgr :=
  w.setSession sid { w.sessions sid with write := (w.sessions sid).write.write msg }

def doRead (w : ConnectionMgr) (sid : Nat) : ConnectionMgr :=
  w.setRead sid ((w.read sid).issue .header)

def handlerReadHeader (mem : Memory) (w : ConnectionMgr) (sid : Nat) (error : Bool) :
    Except Exn ConnectionMgr :=
  if error then .ok (w.readLeave sid)
  else if mem.prepare (w.read sid).header.len then
    .ok (w.setRead sid ((w.read sid).issue (.body (w.read sid).header.len)))
  else .error .prepare

/-- `ProcessMsg_business`, which echoes the message (`ECHO_MSG_IN_SERVER`). -/
def processMsgBusiness (w : ConnectionMgr) (sid : Nat) (msg : MsgPtr) : ConnectionMgr :=
  let s := w.read sid
  (w.setRead sid { s with business := s.business ++ (w.alloc.message msg).toList }).write sid msg

def processMsg (mem : Memory) (w : ConnectionMgr) (sid : Nat) : Except Exn ConnectionMgr :=
  let s := w.read sid
  match w.alloc.newMessage mem s.header s.buf (UInt32.ofNat s.buf.length) with
  | .error e => .error e
  | .ok (alloc, msg) =>
    .ok (({ w with alloc := alloc }.setRead sid { s with buf := [] }).processMsgBusiness sid msg)

def handlerReadBody (mem : Memory) (w : ConnectionMgr) (sid : Nat) (error : Bool) :
    Except Exn ConnectionMgr :=
  if error then .ok (w.readLeave sid)
  else
    match w.processMsg mem sid with
    | .error e => .error e
    | .ok w => .ok (w.doRead sid)

/-- A read handler that waits is run. -/
def runHandler (mem : Memory) (w : ConnectionMgr) (sid : Nat) (part : Part) (error : Bool) :
    Except Exn ConnectionMgr :=
  let w := w.setRead sid ((w.read sid).take part error)
  match part with
  | .header => w.handlerReadHeader mem sid error
  | .body => w.handlerReadBody mem sid error

/-- One round of the loop of `write_to_all`. -/
def copyTo (mem : Memory) (msg : ConnMsg) (w : ConnectionMgr) (sid : Nat) :
    Except Exn ConnectionMgr :=
  match w.alloc.newMessage mem msg.header msg.body msg.bodyLength with
  | .error e => .error e
  | .ok (alloc, msgNew) => .ok ({ w with alloc := alloc }.write sid msgNew)

def writeToAll (mem : Memory) (w : ConnectionMgr) (msg : ConnMsg) : Except Exn ConnectionMgr :=
  w.connectionList.foldlM (copyTo mem msg) w

/-! ## What the handlers do -/

@[simp] theorem read_setRead (w : ConnectionMgr) (sid : Nat) (s : ReadSide) :
    (w.setRead sid s).read sid = s := by
  simp [read, setRead, setSession]

@[simp] theorem setRead_setRead (w : ConnectionMgr) (sid : Nat) (s s' : ReadSide) :
    (w.setRead sid s).setRead sid s' = w.setRead sid s' := by
  simp only [setRead, setSession, if_true, ConnectionMgr.mk.injEq, and_true, true_and]
  funext i
  split <;> rfl

@[simp] theorem alloc_setRead (w : ConnectionMgr) (sid : Nat) (s : ReadSide) :
    (w.setRead sid s).alloc = w.alloc := rfl

@[simp] theorem connectionList_setRead (w : ConnectionMgr) (sid : Nat) (s : ReadSide) :
    (w.setRead sid s).connectionList = w.connectionList := rfl

@[simp] theorem read_write (w : ConnectionMgr) (sid : Nat) (msg : MsgPtr) :
    (w.write sid msg).read sid = w.read sid := by
  simp [read, write, setSession]

@[simp] theorem alloc_write (w : ConnectionMgr) (sid : Nat) (msg : MsgPtr) :
    (w.write sid msg).alloc = w.alloc := rfl

@[simp] theorem connectionList_write (w : ConnectionMgr) (sid : Nat) (msg : MsgPtr) :
    (w.write sid msg).connectionList = w.connectionList := rfl

/-- The sessions but `sid`, and whether they are registered, are as before. -/
structure SameOthers (sid : Nat) (w w' : ConnectionMgr) : Prop where
  sessions : ∀ i ≠ sid, w'.sessions i = w.sessions i
  members : ∀ i ≠ sid, i ∈ w'.connectionList ↔ i ∈ w.connectionList

theorem SameOthers.trans {sid : Nat} {w w' w'' : ConnectionMgr} (h : SameOthers sid w w')
    (h' : SameOthers sid w' w'') : SameOthers sid w w'' :=
  ⟨fun i hi => (h'.sessions i hi).trans (h.sessions i hi),
    fun i hi => (h'.members i hi).trans (h.members i hi)⟩

theorem sameOthers_setRead (w : ConnectionMgr) (sid : Nat) (s : ReadSide) :
    SameOthers sid w (w.setRead sid s) :=
  ⟨fun _ hi => if_neg hi, fun _ _ => Iff.rfl⟩

theorem sameOthers_write (w : ConnectionMgr) (sid : Nat) (msg : MsgPtr) :
    SameOthers sid w (w.write sid msg) :=
  ⟨fun _ hi => if_neg hi, fun _ _ => Iff.rfl⟩

theorem sameOthers_doRead (w : ConnectionMgr) (sid : Nat) : SameOthers sid w (w.doRead sid) :=
  sameOthers_setRead w sid _

theorem sameOthers_processMsgBusiness (w : ConnectionMgr) (sid : Nat) (msg : MsgPtr) :
    SameOthers sid w (w.processMsgBusiness sid msg) :=
  (sameOthers_setRead w sid _).trans (sameOthers_write _ sid msg)

/-- `handler_read_body` without an error: it throws exactly when an allocation
fails; otherwise the message that goes to `ProcessMsg_business` has the length
in the header and the bytes in the buffer, no other message changes, and the
next header read is issued. -/
theorem handlerReadBody_false {w : ConnectionMgr} {held : Multiset MsgPtr}
    (hown : w.alloc.Owns held) (mem : Memory) (sid : Nat)
    (hbuf : (w.read sid).buf.length = (w.read sid).header.len.toNat) :
    (w.alloc.Enough mem (w.read sid).header (w.read sid).header.len ∧ ∃ w' p m,
      w.handlerReadBody mem sid false = .ok w' ∧ SameOthers sid w w' ∧
      w'.alloc.Owns (p ::ₘ held) ∧ (∀ q ∈ held, w'.alloc.objects q = w.alloc.objects q) ∧
      w'.alloc.message p = some m ∧ m.bodyLength = (w.read sid).header.len ∧
      m.body = (w.read sid).buf ∧ w'.connectionList = w.connectionList ∧
      w'.read sid = (w.read sid).delivered m) ∨
    (¬ w.alloc.Enough mem (w.read sid).header (w.read sid).header.len ∧
      ∃ e, w.handlerReadBody mem sid false = .error e) := by
  have hn : UInt32.ofNat (w.read sid).buf.length = (w.read sid).header.len := by
    rw [hbuf, UInt32.ofNat_toNat]
  have hiff := Allocator.newMessage_isOk_iff hown mem (w.read sid).header (w.read sid).buf
    (w.read sid).header.len
  simp only [handlerReadBody, Bool.false_eq_true, if_false, processMsg, hn]
  cases hnew : w.alloc.newMessage mem (w.read sid).header (w.read sid).buf
    (w.read sid).header.len with
  | error e =>
    rw [hnew] at hiff
    refine Or.inr ⟨fun h => ?_, e, rfl⟩
    obtain ⟨r, hr⟩ := hiff.mpr h
    cases hr
  | ok r =>
    obtain ⟨alloc, p⟩ := r
    obtain ⟨hown', m, hm, hbody, hheader⟩ := Allocator.newMessage_ok hown hbuf hnew
    refine Or.inl ⟨hiff.mp ⟨_, hnew⟩, _, p, m, rfl, ?_, hown', ?_, hm, ?_, hbody, rfl, ?_⟩
    · have halloc : SameOthers sid w { w with alloc := alloc } :=
        ⟨fun _ _ => rfl, fun _ _ => Iff.rfl⟩
      exact ((halloc.trans (sameOthers_setRead _ sid _)).trans
        (sameOthers_processMsgBusiness _ sid p)).trans (sameOthers_doRead _ sid)
    · intro q hq
      exact Allocator.newMessage_objects hown hnew hq
    · simp [ConnMsg.bodyLength, hheader, HDR.setLen]
    · simp [doRead, processMsgBusiness, hm, ReadSide.delivered]

/-- `handler_read_header` without an error, as the only call of its session. -/
theorem runHandler_header {w : ConnectionMgr} {sid : Nat}
    (h : (w.read sid).calls = [.handler .header false]) (mem : Memory) :
    w.runHandler mem sid .header false =
      if mem.prepare (w.read sid).header.len then
        .ok (w.setRead sid
          { w.read sid with calls := [.asyncRead (.body (w.read sid).header.len)] })
      else .error .prepare := by
  simp [runHandler, handlerReadHeader, ReadSide.take, ReadSide.issue, h]

/-- `handler_read_body` without an error, as the only call of its session. -/
theorem runHandler_body {w : ConnectionMgr} {sid : Nat}
    (h : (w.read sid).calls = [.handler .body false]) (mem : Memory) :
    w.runHandler mem sid .body false =
      (w.setRead sid { w.read sid with calls := [] }).handlerReadBody mem sid false := by
  simp [runHandler, ReadSide.take, h]

/-- Either handler with an error: the session leaves. -/
theorem runHandler_error {w : ConnectionMgr} {sid : Nat} {part : Part}
    (h : (w.read sid).calls = [.handler part true]) (mem : Memory) :
    w.runHandler mem sid part true = .ok ((w.setRead sid
      { w.read sid with calls := [], leaves := (w.read sid).leaves + 1 }).leave sid) := by
  cases part <;> simp [runHandler, handlerReadHeader, handlerReadBody, readLeave, ReadSide.take, h]

end ConnectionMgr

end AsioTcp
