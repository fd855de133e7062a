import AsioTcp.ConnectionMgr

/-!
# Frames that cannot be handled

A frame passes three allocations on its way from the wire to `write`:
`streambuf::prepare` in `handler_read_header`, and in `handler_read_body` the
`new conn_msg` and the `new char[]` behind `ProcessMsg`. Their sizes come from
`header_.len` as the peer has sent it. A failed read ends in `leave`; a failed
allocation throws, and nothing on the way, nor in the io threads of
`server_tcp::start`, catches the exception. `frame_contained_iff` says which
frames end well, for every length, every memory and every state of the other
sessions.
-/

namespace AsioTcp.FrameErrors

open ConnectionMgr

/-- Session `sid` handles a frame whose header has been read. In `w`
`handler_read_header` runs; `w'` is the state in which the body read is over,
with these bytes read and with or without an error. The result are the states
after the two handlers. -/
def handleFrame (mem mem' : Memory) (w w' : ConnectionMgr) (sid : Nat) (bytes : List BYTE)
    (error : Bool) : Except Exn (ConnectionMgr × ConnectionMgr) :=
  match w.runHandler mem sid .header false with
  | .error e => .error e
  | .ok w₁ =>
    let op := ReadOp.body (w.read sid).header.len
    match (w'.setRead sid ((w'.read sid).transfer op bytes error)).runHandler mem' sid .body
      error with
    | .error e => .error e
    | .ok w₂ => .ok (w₁, w₂)

/-- The header of a frame has been read in `w`. Until `w'` anything may have
happened but to the read side of the session, which only its own read handlers
use, and to the rules for messages that `Allocator.Owns` states. -/
structure Arriving (sid : Nat) (held : Multiset MsgPtr) (w w' : ConnectionMgr) : Prop where
  waits : (w.read sid).calls = [.handler .header false]
  empty : (w.read sid).buf = []
  kept : w'.read sid =
    { w.read sid with calls := [.asyncRead (.body (w.read sid).header.len)] }
  owns : w'.alloc.Owns held

/-- The message is delivered and the next header read issued. -/
structure Delivered (sid : Nat) (bytes : List BYTE) (w w' : ConnectionMgr) : Prop where
  message : ∃ p m, w'.alloc.message p = some m ∧ m.bodyLength = (w.read sid).header.len ∧
    m.body = bytes ∧ (w'.read sid).business = (w.read sid).business ++ [m]
  reissued : (w'.read sid).calls = [.asyncRead .header]

/-- The session has left and reads nothing more. -/
structure Left (sid : Nat) (w' : ConnectionMgr) : Prop where
  member : sid ∉ w'.connectionList
  stopped : (w'.read sid).calls = []

/-- No exception; the frame is delivered or the session leaves; and nothing of
the other sessions changes, their queued messages included. -/
def Contained (held : Multiset MsgPtr) (mem mem' : Memory) (w w' : ConnectionMgr) (sid : Nat)
    (bytes : List BYTE) (error : Bool) : Prop :=
  ∃ w₁ w₂, handleFrame mem mem' w w' sid bytes error = .ok (w₁, w₂) ∧
    (Delivered sid bytes w' w₂ ∨ Left sid w₂) ∧ SameOthers sid w w₁ ∧ SameOthers sid w' w₂ ∧
    ∀ p ∈ held, w₂.alloc.objects p = w'.alloc.objects p

/-- The read side when the body read is over. -/
theorem transfer_body (s : ReadSide) (n : SizeT) (bytes : List BYTE) (error : Bool) :
    { s with calls := [.asyncRead (.body n)] }.transfer (.body n) bytes error =
      { s with calls := [.handler .body error], buf := s.buf ++ bytes } := by
  simp [ReadSide.transfer, ReadOp.part]

/-- A body read that failed: the session leaves. -/
theorem left_of_error {w w' : ConnectionMgr} {sid : Nat} {held : Multiset MsgPtr}
    (h : Arriving sid held w w') (mem : Memory) (bytes : List BYTE) :
    ∃ w₂, (w'.setRead sid ((w'.read sid).transfer (.body (w.read sid).header.len) bytes
        true)).runHandler mem sid .body true = .ok w₂ ∧
      Left sid w₂ ∧ SameOthers sid w' w₂ ∧ w₂.alloc = w'.alloc := by
  rw [h.kept, transfer_body, runHandler_error (by rw [read_setRead])]
  refine ⟨_, rfl, ⟨by simp [leave], ?_⟩, ⟨fun i hi => ?_, fun i hi => ?_⟩, rfl⟩
  · simp [leave, ConnectionMgr.read, setRead, setSession]
  · simp [leave, setRead, setSession, hi]
  · simp [leave, hi]

/-- A body read that succeeded: the frame is delivered if the allocations for
its message succeed, and otherwise the handler throws. -/
theorem delivered_or_throws {w w' : ConnectionMgr} {sid : Nat} {held : Multiset MsgPtr}
    (h : Arriving sid held w w') (mem : Memory) {bytes : List BYTE}
    (hlen : bytes.length = (w.read sid).header.len.toNat) :
    let w'' := w'.setRead sid ((w'.read sid).transfer (.body (w.read sid).header.len) bytes false)
    (w'.alloc.Enough mem (w.read sid).header (w.read sid).header.len ∧
      ∃ w₂, w''.runHandler mem sid .body false = .ok w₂ ∧ Delivered sid bytes w' w₂ ∧
        SameOthers sid w' w₂ ∧ ∀ p ∈ held, w₂.alloc.objects p = w'.alloc.objects p) ∨
    (¬ w'.alloc.Enough mem (w.read sid).header (w.read sid).header.len ∧
      ∃ e, w''.runHandler mem sid .body false = .error e) := by
  intro w''
  let s : ReadSide := { w.read sid with calls := [], buf := bytes }
  have hread : w''.read sid = { s with calls := [.handler .body false] } := by
    rw [read_setRead, h.kept, transfer_body, h.empty]
    rfl
  have hrun : w''.runHandler mem sid .body false =
      (w'.setRead sid s).handlerReadBody mem sid false := by
    rw [runHandler_body (by rw [hread]), hread, setRead_setRead]
  rw [hrun]
  have hcase := handlerReadBody_false (w := w'.setRead sid s) h.owns mem sid
    (by rw [read_setRead]; exact hlen)
  rw [read_setRead] at hcase
  rcases hcase with ⟨henough, w₂, p, m, hok, hsame, _, hobj, hm, hml, hmb, _, hr⟩ | hthrow
  · refine Or.inl ⟨henough, w₂, hok, ⟨⟨p, m, hm, ?_, hmb, ?_⟩, ?_⟩,
      (sameOthers_setRead w' sid s).trans hsame, hobj⟩
    · rw [hml, h.kept]
    · rw [hr, h.kept]; rfl
    · rw [hr]; rfl
  · exact Or.inr hthrow

/-- **Containment.** A frame is handled without an exception if and only if
its length can be prepared for and, should its body arrive, the allocations
for its message succeed. -/
theorem frame_contained_iff (mem mem' : Memory) (w w' : ConnectionMgr) (sid : Nat)
    (held : Multiset MsgPtr) (bytes : List BYTE) (error : Bool) (h : Arriving sid held w w')
    (hlen : error = false → bytes.length = (w.read sid).header.len.toNat) :
    Contained held mem mem' w w' sid bytes error ↔
      mem.prepare (w.read sid).header.len = true ∧ (error = false →
        w'.alloc.Enough mem' (w.read sid).header (w.read sid).header.len) := by
  have hheader := runHandler_header h.waits mem
  cases hprep : mem.prepare (w.read sid).header.len with
  | false =>
    rw [hprep] at hheader
    refine iff_of_false ?_ (fun hc => Bool.false_ne_true hc.1)
    rintro ⟨w₁, w₂, hok, _⟩
    simp [handleFrame, hheader] at hok
  | true =>
    rw [hprep] at hheader
    have hfirst := sameOthers_setRead w sid
      { w.read sid with calls := [.asyncRead (.body (w.read sid).header.len)] }
    cases error with
    | true =>
      obtain ⟨w₂, hrun, hleft, hsame, halloc⟩ := left_of_error h mem' bytes
      refine iff_of_true ⟨_, w₂, ?_, Or.inr hleft, hfirst, hsame, fun p _ => by rw [halloc]⟩
        ⟨rfl, fun he => Bool.noConfusion he⟩
      simp only [handleFrame, hheader, if_true, hrun]
    | false =>
      rcases delivered_or_throws h mem' (hlen rfl) with
        ⟨henough, w₂, hrun, hdel, hsame, hobj⟩ | ⟨hno, e, hrun⟩
      · refine iff_of_true ⟨_, w₂, ?_, Or.inl hdel, hfirst, hsame, hobj⟩
          ⟨rfl, fun _ => henough⟩
        simp only [handleFrame, hheader, if_true, hrun]
      · refine iff_of_false ?_ (fun hc => hno (hc.2 rfl))
        rintro ⟨w₁, w₂, hok, _⟩
        simp [handleFrame, hheader, hrun] at hok

/-- A server with one session, whose peer has sent this header. -/
def oneSession (header : HDR) (calls : List ReadCall) : ConnectionMgr :=
  ⟨.init, fun _ => ⟨{ ReadSide.init header with calls := calls }, .init⟩, [0]⟩

/-- A machine with 2 GB for the process. -/
def twoGigabytes : Memory := ⟨fun n => n < 0x80000000, true, fun n => n < 0x80000000⟩

theorem arriving_oneSession (header : HDR) : Arriving 0 0
    (oneSession header [.handler .header false])
    (oneSession header [.asyncRead (.body header.len)]) :=
  ⟨rfl, rfl, rfl, Allocator.owns_init⟩

/-- A frame of 300 bytes, on such a machine. -/
theorem frame_contained_iff_small :
    Contained 0 twoGigabytes twoGigabytes
        (oneSession ⟨300, 0, 0, 0, 0, 0⟩ [.handler .header false])
        (oneSession ⟨300, 0, 0, 0, 0, 0⟩ [.asyncRead (.body 300)]) 0 (List.replicate 300 1) false ↔
      twoGigabytes.prepare 300 = true ∧ (false = false →
        Allocator.init.Enough twoGigabytes ⟨300, 0, 0, 0, 0, 0⟩ 300) :=
  frame_contained_iff _ _ _ _ _ _ _ _ (arriving_oneSession _) (fun _ => List.length_replicate)

/-- A header with the largest length: `prepare` throws and nobody catches it. -/
theorem frame_escapes : ∃ w w', Arriving 0 0 w w' ∧ (w.read 0).header.len = 0xFFFFFFFF ∧
    ¬ Contained 0 twoGigabytes twoGigabytes w w' 0 [] true := by
  refine ⟨_, _, arriving_oneSession ⟨0xFFFFFFFF, 0, 0, 0, 0, 0⟩, rfl, ?_⟩
  rintro ⟨w₁, w₂, hok, _⟩
  cases hok

end AsioTcp.FrameErrors
