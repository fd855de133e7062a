import AsioTcp.Lib.Transit
import AsioTcp.RunConnection

/-!
# One frame goes round

Between the client and the echoing session one frame is under way at a time,
and `Phase` says where it is: from the first byte that the client sends until
the session has made a message of it, and from there until the client has all
of it. The only thing that the session may have left to do for the frame before
is to run the handler of its last write, which is why its queue can hold two
messages, and never three. `echo_rounds` draws the conclusions.
-/

namespace AsioTcp.RunConnection

open Transition Transit SerialWrite ConnectionMgr

theorem Request.length_toNat (r : Request) : r.length.toNat = r.bytes.length :=
  UInt32.toNat_ofNat_of_lt r.fits

/-- The bytes of a frame with the request as its body. -/
def frame (request : Request) (h : HDR) : List BYTE := h.toBytes ++ request.bytes

def frameSize (request : Request) : Nat := headerSize + request.bytes.length

theorem length_frame (request : Request) (h : HDR) :
    (frame request h).length = frameSize request := by
  rw [frame, List.length_append, HDR.length_toBytes, frameSize]

/-- The two parts of a frame, and where they begin. -/
def partBytes (request : Request) (h : HDR) : Part → List BYTE
  | .header => h.toBytes
  | .body => request.bytes

def offset : Part → Nat
  | .header => 0
  | .body => headerSize

theorem offset_add_le (request : Request) (h : HDR) (part : Part) :
    offset part + (partBytes request h part).length ≤ frameSize request := by
  cases part with
  | header => simp [offset, partBytes, frameSize]
  | body => exact Nat.le_refl _

/-- A piece of one part is a piece of the frame. -/
theorem take_drop_part (request : Request) (h : HDR) (part : Part) {n k : Nat}
    (hk : n + k ≤ (partBytes request h part).length) :
    ((frame request h).drop (offset part + n)).take k =
      ((partBytes request h part).drop n).take k := by
  cases part with
  | header =>
    have hk : n + k ≤ h.toBytes.length := hk
    rw [frame, offset, Nat.zero_add, List.drop_append_of_le_length (by omega),
      List.take_append_of_le_length]
    · rfl
    · rw [List.length_drop]
      omega
  | body =>
    rw [frame, offset, ← h.length_toBytes, List.drop_length_add_append]
    rfl

/-! ## The client -/

def Buffer.part : Buffer → Part
  | .header | .headerRcv => .header
  | .request | .buf => .body

/-- The variables that the current `write` sends from have the frame. -/
def Holds (request : Request) (h : HDR) (c : Client) : Buffer → Prop
  | .header | .request => c.buf = [] ∧ c.header = h
  | .headerRcv | .buf => c.buf = request.bytes ∧ c.headerRcv = h

theorem contents_of_holds {request : Request} {h : HDR} {c : Client} {buffer : Buffer}
    (hlen : h.len = request.length) (hh : Holds request h c buffer) :
    c.contents request buffer = partBytes request h buffer.part := by
  cases buffer with
  | header => exact congrArg HDR.toBytes hh.2
  | request => rfl
  | headerRcv => exact congrArg HDR.toBytes hh.2
  | buf =>
    show c.buf.take c.headerRcv.len.toNat = request.bytes
    rw [hh.1, hh.2, hlen, request.length_toNat, List.take_length]

/-- The client has sent `a` bytes of the frame with header `h`. -/
def Sends (request : Request) (h : HDR) (a : Nat) (c : Client) : Prop :=
  match c.point with
  | .write buffer n => a = offset buffer.part + n ∧
      n ≤ (partBytes request h buffer.part).length ∧ Holds request h c buffer
  | .readHeader got => a = frameSize request ∧ got = [] ∧ c.buf = []
  | .readBody _ => False
  | .done => a = frameSize request

/-- The client has got `d` bytes of the frame with header `h`; it may not yet
have come to read. -/
def Receives (request : Request) (h : HDR) (d : Nat) (c : Client) : Prop :=
  match c.point with
  | .readHeader got => d = got.length ∧ d ≤ headerSize ∧ got = h.toBytes.take d ∧ c.buf = []
  | .readBody n => d = headerSize + n ∧ n ≤ request.bytes.length ∧
      c.headerRcv = h ∧ c.buf = request.bytes.take n
  | _ => d = 0 ∧ ∃ h', h'.len = request.length ∧ Sends request h' (frameSize request) c

/-- What the client records, but for the bytes sent. -/
structure SameRecord (c c' : Client) : Prop where
  received : c'.received = c.received
  failed : c'.failed = c.failed

theorem Sends.le {request : Request} {h : HDR} {a : Nat} {c : Client}
    (hs : Sends request h a c) : a ≤ frameSize request := by
  unfold Sends at hs
  split at hs
  · rename_i buffer n _
    have hle := offset_add_le request h buffer.part
    omega
  · exact hs.1.le
  · exact hs.elim
  · exact hs.le

/-- What the client still has to send is the rest of one part of the frame. -/
theorem Sends.outgoing {request : Request} {h : HDR} {a : Nat} {c : Client}
    (hlen : h.len = request.length) (hs : Sends request h a c) : c.outgoing request = [] ∨
      ∃ buffer n, c.point = .write buffer n ∧ a = offset buffer.part + n ∧
        c.outgoing request = (partBytes request h buffer.part).drop n := by
  unfold Sends at hs
  cases hp : c.point with
  | write buffer n =>
    simp only [hp] at hs
    refine Or.inr ⟨buffer, n, rfl, hs.1, ?_⟩
    simp only [Client.outgoing, hp, contents_of_holds hlen hs.2.2]
  | _ => exact Or.inl (by simp only [Client.outgoing, hp])

/-- The client sends a piece of the frame. -/
theorem client_sends {request : Request} {h : HDR} {a k : Nat} {c : Client}
    (hlen : h.len = request.length) (hs : Sends request h a c) (hpos : 0 < k)
    (hk : k ≤ (c.outgoing request).length) :
    Sends request h (a + k) (c.sends k) ∧
      (c.outgoing request).take k = ((frame request h).drop a).take k ∧
      SameRecord c (c.sends k) ∧ (c.sends k).written = c.written + k := by
  rcases hs.outgoing hlen with hout | ⟨buffer, n, hp, rfl, hout⟩
  · rw [hout] at hk
    exact absurd hk (Nat.not_le.mpr hpos)
  · rw [hout, List.length_drop] at hk
    have hnk : n + k ≤ (partBytes request h buffer.part).length := by omega
    have hsends : c.sends k =
        { c with written := c.written + k, point := .write buffer (n + k) } := by
      simp only [Client.sends, hp, Client.goto]
    rw [hsends, hout]
    refine ⟨?_, (take_drop_part request h buffer.part hnk).symm, ⟨rfl, rfl⟩, rfl⟩
    unfold Sends at hs
    rw [hp] at hs
    show _ = _ ∧ _ ≤ _ ∧ _
    refine ⟨Nat.add_assoc _ _ _, hnk, ?_⟩
    have hholds := hs.2.2
    cases buffer <;> exact hholds

/-- A client that has sent all of the frame has nothing to send. -/
theorem Sends.nothing_left {request : Request} {h : HDR} {c : Client}
    (hlen : h.len = request.length) (hs : Sends request h (frameSize request) c) :
    c.outgoing request = [] := by
  rcases hs.outgoing hlen with hout | ⟨buffer, n, _, ha, hout⟩
  · exact hout
  · have hle := offset_add_le request h buffer.part
    rw [hout]
    exact List.drop_of_length_le (by omega)

/-- A `write` of the client returns, or the loop ends. -/
theorem client_returns {request : Request} {h : HDR} {a : Nat} {c : Client} (nTotalCnt : Nat)
    (hlen : h.len = request.length) (hs : Sends request h a c) (hp : c.point ≠ .done)
    (hout : c.outgoing request = []) (hwant : c.wanted = 0) :
    Sends request h a (c.returns nTotalCnt) ∧ SameRecord c (c.returns nTotalCnt) ∧
      (c.returns nTotalCnt).written = c.written := by
  have hL : h.len.toNat = request.bytes.length := by rw [hlen, request.length_toNat]
  unfold Sends at hs
  cases hpoint : c.point with
  | done => exact absurd hpoint hp
  | readBody n => simp only [hpoint] at hs
  | readHeader got =>
    simp only [hpoint] at hs
    simp [Client.wanted, hpoint, hs.2.1, headerSize] at hwant
  | write buffer n =>
    simp only [hpoint] at hs
    obtain ⟨ha, hn, hholds⟩ := hs
    -- the whole part has been sent
    have hall : n = (partBytes request h buffer.part).length := by
      simp only [Client.outgoing, hpoint, contents_of_holds hlen hholds,
        List.drop_eq_nil_iff] at hout
      exact Nat.le_antisymm hn hout
    cases buffer with
    | header =>
      have hn : n = headerSize := hall.trans h.length_toBytes
      simp only [Client.returns, hpoint]
      refine ⟨?_, ⟨rfl, rfl⟩, rfl⟩
      show _ = _ ∧ _ ≤ _ ∧ _
      refine ⟨?_, Nat.zero_le _, hholds⟩
      rw [ha, hn]
      rfl
    | request =>
      simp only [Client.returns, hpoint]
      refine ⟨?_, ⟨rfl, rfl⟩, rfl⟩
      show _ = _ ∧ _ = _ ∧ _
      refine ⟨?_, rfl, hholds.1⟩
      rw [ha, hall]
      rfl
    | headerRcv =>
      have hn : n = headerSize := hall.trans h.length_toBytes
      subst hn
      simp only [Client.returns, hpoint]
      refine ⟨?_, ⟨rfl, ?_⟩, rfl⟩
      · show _ = _ ∧ _ ≤ _ ∧ _
        exact ⟨ha, Nat.zero_le _, hholds⟩
      · simp [Client.assert, Client.goto]
    | buf =>
      have hn : n = c.headerRcv.len.toNat := by
        rw [hholds.2, hL]
        exact hall
      have hend : a = frameSize request := by
        rw [ha, hall]
        rfl
      simp only [Client.returns, hpoint]
      split
      · refine ⟨?_, ⟨rfl, ?_⟩, rfl⟩
        · show _ = _ ∧ _ = _ ∧ _
          exact ⟨hend, rfl, rfl⟩
        · simp [Client.assert, Client.goto, Client.loop, hn]
      · refine ⟨hend, ⟨rfl, ?_⟩, rfl⟩
        simp [Client.assert, Client.goto, hn]

/-- A client that has sent the whole frame is ready for the next one. -/
theorem Sends.receives {request : Request} {h h' : HDR} {c : Client}
    (hlen : h.len = request.length) (hs : Sends request h (frameSize request) c) :
    Receives request h' 0 c := by
  have hsends := hs
  unfold Sends at hs
  unfold Receives
  cases hp : c.point with
  | write buffer n => exact ⟨rfl, h, hlen, hsends⟩
  | done => exact ⟨rfl, h, hlen, hsends⟩
  | readBody n => simp only [hp] at hs
  | readHeader got =>
    simp only [hp] at hs
    obtain ⟨_, rfl, hbuf⟩ := hs
    exact ⟨rfl, Nat.zero_le _, rfl, hbuf⟩

/-- A client that is to receive has nothing to send. -/
theorem Receives.nothing_left {request : Request} {h : HDR} {d : Nat} {c : Client}
    (hr : Receives request h d c) : c.outgoing request = [] := by
  unfold Receives at hr
  cases hp : c.point with
  | readHeader got | readBody n | done => simp only [Client.outgoing, hp]
  | write buffer n =>
    simp only [hp] at hr
    obtain ⟨-, h', hlen, hs⟩ := hr
    exact hs.nothing_left hlen

/-- The client gets a piece of the frame. -/
theorem client_receives {request : Request} {h : HDR} {d k : Nat} {c : Client}
    (hlen : h.len = request.length) (hr : Receives request h d c) (hpos : 0 < k)
    (hk : k ≤ c.wanted) :
    Receives request h (d + k) (c.receives (((frame request h).drop d).take k)) ∧
      SameRecord c (c.receives (((frame request h).drop d).take k)) ∧
      (c.receives (((frame request h).drop d).take k)).written = c.written := by
  have hL : h.len.toNat = request.bytes.length := by rw [hlen, request.length_toNat]
  unfold Receives at hr
  cases hp : c.point with
  | write | done =>
    simp only [Client.wanted, hp] at hk
    exact absurd hk (Nat.not_le.mpr hpos)
  | readHeader got =>
    simp only [hp] at hr
    simp only [Client.wanted, hp] at hk
    obtain ⟨rfl, hd, hgot, hbuf⟩ := hr
    have hk : got.length + k ≤ headerSize := by omega
    have hbytes : ((frame request h).drop got.length).take k =
        (h.toBytes.drop got.length).take k := by
      have htake := take_drop_part request h .header
        (show got.length + k ≤ h.toBytes.length by rw [HDR.length_toBytes]; exact hk)
      rwa [offset, Nat.zero_add] at htake
    have hnew : got ++ (h.toBytes.drop got.length).take k = h.toBytes.take (got.length + k) := by
      rw [← take_append_take]
      exact congrArg (· ++ _) hgot
    simp only [Client.receives, hp, hbytes]
    refine ⟨?_, ⟨rfl, rfl⟩, rfl⟩
    show _ = _ ∧ _ ≤ _ ∧ _ = _ ∧ _ = _
    refine ⟨?_, hk, hnew, hbuf⟩
    rw [hnew, List.length_take, HDR.length_toBytes, Nat.min_eq_left hk]
  | readBody n =>
    simp only [hp] at hr
    simp only [Client.wanted, hp] at hk
    obtain ⟨rfl, hn, hheader, hbuf⟩ := hr
    rw [hheader, hL] at hk
    have hk : n + k ≤ request.bytes.length := by omega
    have hbytes : ((frame request h).drop (headerSize + n)).take k =
        (request.bytes.drop n).take k := take_drop_part request h .body hk
    have hlength : ((request.bytes.drop n).take k).length = k := by
      rw [List.length_take, List.length_drop]
      omega
    simp only [Client.receives, hp, hbytes]
    refine ⟨?_, ⟨rfl, rfl⟩, rfl⟩
    show _ = _ ∧ _ ≤ _ ∧ _ = _ ∧ _ = _
    rw [hlength]
    refine ⟨Nat.add_assoc _ _ _, hk, hheader, ?_⟩
    show c.buf ++ _ = _
    rw [hbuf, take_append_take]

/-- A `read` of the client returns: the frame is there, or there is more of it
to read. -/
theorem read_returns {request : Request} {h : HDR} {d : Nat} {c : Client} (nTotalCnt : Nat)
    (hlen : h.len = request.length) (hr : Receives request h d c) (hp : c.point ≠ .done)
    (hwant : c.wanted = 0) :
    (Receives request h d (c.returns nTotalCnt) ∧ SameRecord c (c.returns nTotalCnt) ∧
      (c.returns nTotalCnt).written = c.written) ∨
    (d = frameSize request ∧ Sends request h 0 (c.returns nTotalCnt) ∧
      (c.returns nTotalCnt).received = c.received ++ [(request.length, request.bytes)] ∧
      (c.returns nTotalCnt).failed = c.failed ∧ (c.returns nTotalCnt).written = c.written) := by
  have hL : h.len.toNat = request.bytes.length := by rw [hlen, request.length_toNat]
  have hout := hr.nothing_left
  unfold Receives at hr
  cases hpoint : c.point with
  | done => exact absurd hpoint hp
  | write buffer n =>
    simp only [hpoint] at hr
    obtain ⟨rfl, h', hlen', hs⟩ := hr
    obtain ⟨hs', hrecord, hwritten⟩ := client_returns nTotalCnt hlen' hs hp hout hwant
    exact Or.inl ⟨hs'.receives hlen', hrecord, hwritten⟩
  | readHeader got =>
    simp only [hpoint] at hr
    simp only [Client.wanted, hpoint] at hwant
    obtain ⟨rfl, hd, hgot, hbuf⟩ := hr
    have hfull : got.length = headerSize := by omega
    have hall : got = h.toBytes := by
      rw [hgot, hfull]
      exact List.take_of_length_le h.length_toBytes.le
    have hheader : HDR.ofBytes (ConnMsg.overwrite c.headerRcv.toBytes got headerSize) = h := by
      rw [ReadLoop.overwrite_all hfull (HDR.length_toBytes _), hall, HDR.ofBytes_toBytes]
    simp only [Client.returns, hpoint, hheader]
    refine Or.inl ⟨?_, ⟨rfl, ?_⟩, rfl⟩
    · show _ = _ ∧ _ ≤ _ ∧ _ = _ ∧ _ = _
      exact ⟨hfull, Nat.zero_le _, rfl, hbuf⟩
    · simp [Client.assert, Client.goto, hfull]
  | readBody n =>
    simp only [hpoint] at hr
    simp only [Client.wanted, hpoint] at hwant
    obtain ⟨rfl, hn, hheader, hbuf⟩ := hr
    rw [hheader, hL] at hwant
    have hfull : n = request.bytes.length := by omega
    have hall : c.buf = request.bytes := by
      rw [hbuf, hfull, List.take_length]
    simp only [Client.returns, hpoint]
    refine Or.inr ⟨by rw [hfull]; rfl, ?_, ?_, ?_, rfl⟩
    · show _ = _ ∧ _ ≤ _ ∧ _ = _ ∧ _ = _
      exact ⟨rfl, Nat.zero_le _, hall, hheader⟩
    · simp [Client.assert, Client.goto, hheader, hlen, hall]
    · simp [Client.assert, Client.goto, hheader, hL, hfull]

/-! ## The read side of the session -/

/-- The session has read `b` bytes of the frame with header `h`. -/
inductive Reads (request : Request) (h : HDR) (r : ReadSide) : Nat → Prop
  | header : r.calls = [.asyncRead .header] → r.buf = [] → Reads request h r 0
  | headerRead : r.calls = [.handler .header false] → r.buf = [] → r.header = h →
      Reads request h r headerSize
  | body : r.calls = [.asyncRead (.body h.len)] → r.buf = [] → r.header = h →
      Reads request h r headerSize
  | bodyRead : r.calls = [.handler .body false] → r.buf = request.bytes → r.header = h →
      Reads request h r (frameSize request)

/-- An `async_read` of the session is over. -/
theorem reads_transfer {request : Request} {h : HDR} {r : ReadSide} {a b : Nat} {op : ReadOp}
    (hlen : h.len = request.length) (hr : Reads request h r b) (hb : b ≤ a)
    (ha : a ≤ frameSize request) (hop : .asyncRead op ∈ r.calls)
    (hsize : op.size ≤ (transit (frame request h) b a).length) :
    Reads request h (r.transfer op ((transit (frame request h) b a).take op.size) false)
        (b + op.size) ∧ b + op.size ≤ a := by
  have hL : h.len.toNat = request.bytes.length := by rw [hlen, request.length_toNat]
  rw [length_transit (by rw [length_frame]; exact ha)] at hsize
  cases hr with
  | headerRead hc | bodyRead hc =>
    rw [hc] at hop
    simp at hop
  | header hc hbuf =>
    rw [hc] at hop
    obtain rfl : op = .header := by simpa using hop
    have hle : 0 + headerSize ≤ a := by
      simp only [ReadOp.size] at hsize
      omega
    have hbytes : (transit (frame request h) 0 a).take headerSize = h.toBytes := by
      rw [take_transit hle]
      have htake := take_drop_part request h .header (n := 0) (k := headerSize)
        (by rw [Nat.zero_add]; exact h.length_toBytes.ge)
      rw [offset, Nat.add_zero] at htake
      rw [htake]
      exact List.take_of_length_le h.length_toBytes.le
    have hheader : (r.transfer .header h.toBytes false).header = h := by
      show HDR.ofBytes (ConnMsg.overwrite _ _ _) = h
      rw [ReadLoop.overwrite_all h.length_toBytes (HDR.length_toBytes _), HDR.ofBytes_toBytes]
    rw [ReadOp.size, hbytes]
    refine ⟨.headerRead ?_ hbuf hheader, hle⟩
    simp [ReadSide.transfer, ReadOp.part, hc]
  | body hc hbuf hheader =>
    rw [hc] at hop
    obtain rfl : op = .body h.len := by simpa using hop
    have hsize : request.bytes.length ≤ a - headerSize := by rwa [ReadOp.size, hL] at hsize
    have hend : headerSize + request.bytes.length ≤ a := by omega
    have hbytes : (transit (frame request h) headerSize a).take request.bytes.length =
        request.bytes := by
      rw [take_transit hend]
      have htake := take_drop_part request h .body (n := 0) (k := request.bytes.length)
        (by rw [Nat.zero_add]; exact Nat.le_refl _)
      rw [offset, Nat.add_zero] at htake
      rw [htake]
      exact List.take_length
    rw [ReadOp.size, hL, hbytes]
    refine ⟨.bodyRead ?_ ?_ hheader, hend⟩
    · simp [ReadSide.transfer, ReadOp.part, hc]
    · show r.buf ++ request.bytes = request.bytes
      rw [hbuf, List.nil_append]

/-! ## The write side of the session -/

def queue (w : ConnectionMgr) (sid : Nat) : List MsgPtr := (w.sessions sid).write.session.msgQueue

def outstanding (w : ConnectionMgr) (sid : Nat) : List (WriteOp MsgPtr) :=
  (w.sessions sid).write.outstanding

/-- The messages of the queue have the length and the body of the request, and
nothing has been sent of writes that are still to come. -/
structure Kept (sid : Nat) (request : Request) (held : Multiset MsgPtr) (w : ConnectionMgr)
    (sent : WriteOp MsgPtr → Nat) : Prop where
  owns : w.alloc.Owns (↑(queue w sid) + held)
  messages : ∀ p ∈ queue w sid, ∃ m, w.alloc.message p = some m ∧
    m.header.len = request.length ∧ m.body = request.bytes
  unsent : ∀ op ∉ outstanding w sid, sent op = 0

/-- Nothing of a frame is left to send; the handler of the last write may not
have run. -/
inductive Idle (sid : Nat) (request : Request) (w : ConnectionMgr) (sent : WriteOp MsgPtr → Nat) :
    Prop
  | empty : queue w sid = [] → outstanding w sid = [] → Idle sid request w sent
  | spent (part : Part) (p : MsgPtr) : queue w sid = [p] → outstanding w sid = [⟨part, p⟩] →
      offset part + sent ⟨part, p⟩ = frameSize request → Idle sid request w sent

/-- The session has sent `c` bytes of the frame that the message `p` is. -/
inductive Writing (sid : Nat) (request : Request) (w : ConnectionMgr)
    (sent : WriteOp MsgPtr → Nat) (p : MsgPtr) : Nat → Prop
  | behind (part : Part) (p' : MsgPtr) : queue w sid = [p', p] →
      outstanding w sid = [⟨part, p'⟩] → offset part + sent ⟨part, p'⟩ = frameSize request →
      Writing sid request w sent p 0
  | front (part : Part) (c : Nat) : queue w sid = [p] → outstanding w sid = [⟨part, p⟩] →
      c = offset part + sent ⟨part, p⟩ → Writing sid request w sent p c
  | written : queue w sid = [] → outstanding w sid = [] →
      Writing sid request w sent p (frameSize request)

/-- The buffer of a write is one part of the frame. -/
theorem buffer_of_message {w : ConnectionMgr} {request : Request} {p : MsgPtr} {m : ConnMsg}
    (hm : w.alloc.message p = some m) (hbody : m.body = request.bytes) (part : Part) :
    w.buffer ⟨part, p⟩ = partBytes request m.header part := by
  simp only [ConnectionMgr.buffer, hm]
  cases part with
  | header => rfl
  | body => exact hbody

theorem length_buffer {sid : Nat} {request : Request} {held : Multiset MsgPtr} {w : ConnectionMgr}
    {sent : WriteOp MsgPtr → Nat} (h : Kept sid request held w sent) {p : MsgPtr}
    (hp : p ∈ queue w sid) (part : Part) :
    offset part + (w.buffer ⟨part, p⟩).length ≤ frameSize request := by
  obtain ⟨m, hm, -, hbody⟩ := h.messages p hp
  rw [buffer_of_message hm hbody]
  exact offset_add_le request m.header part

@[simp] theorem outstanding_setRead (w : ConnectionMgr) (sid : Nat) (r : ReadSide) :
    outstanding (w.setRead sid r) sid = outstanding w sid := by
  simp [outstanding, setRead, setSession]

@[simp] theorem queue_setRead (w : ConnectionMgr) (sid : Nat) (r : ReadSide) :
    queue (w.setRead sid r) sid = queue w sid := by
  simp [queue, setRead, setSession]

/-- The read side is nothing to the writes. -/
theorem kept_setRead {sid : Nat} {request : Request} {held : Multiset MsgPtr} {w : ConnectionMgr}
    {sent : WriteOp MsgPtr → Nat} (h : Kept sid request held w sent) (r : ReadSide) :
    Kept sid request held (w.setRead sid r) sent ∧
      (Idle sid request w sent → Idle sid request (w.setRead sid r) sent) := by
  constructor
  · constructor
    · rw [queue_setRead]
      exact h.owns
    · rw [queue_setRead]
      exact h.messages
    · rw [outstanding_setRead]
      exact h.unsent
  · rintro (⟨hq, hout⟩ | ⟨part, p, hq, hout, hall⟩)
    · exact .empty (by rwa [queue_setRead]) (by rwa [outstanding_setRead])
    · exact .spent part p (by rwa [queue_setRead]) (by rwa [outstanding_setRead]) hall

/-- `handler_write_header` issues the write of the body. -/
theorem handleWrite_header {w : ConnectionMgr} {sid : Nat} {p : MsgPtr} {q : List MsgPtr}
    (hq : queue w sid = p :: q) (hout : outstanding w sid = [⟨.header, p⟩]) :
    queue (w.handleWrite sid ⟨.header, p⟩) sid = p :: q ∧
      outstanding (w.handleWrite sid ⟨.header, p⟩) sid = [⟨.body, p⟩] ∧
      (w.handleWrite sid ⟨.header, p⟩).alloc = w.alloc := by
  simp only [queue, outstanding] at hq hout
  refine ⟨?_, ?_, rfl⟩ <;>
    simp [queue, outstanding, handleWrite, setSession, SerialSession.complete,
      SerialSession.handlerWriteHeader, WriteSide.complete, WriteSide.handlerWriteHeader,
      WriteSide.issue, hq, hout]

/-- `handler_write_body` gives the front message back, and `do_write` takes up
the next one. -/
theorem handleWrite_body {w : ConnectionMgr} {sid : Nat} {p : MsgPtr} {q : List MsgPtr}
    (hq : queue w sid = p :: q) (hout : outstanding w sid = [⟨.body, p⟩]) :
    queue (w.handleWrite sid ⟨.body, p⟩) sid = q ∧
      outstanding (w.handleWrite sid ⟨.body, p⟩) sid = (q.head?.map (WriteOp.mk .header)).toList ∧
      (w.handleWrite sid ⟨.body, p⟩).alloc = w.alloc.dellocateMsgBuffer p := by
  simp only [queue, outstanding] at hq hout
  refine ⟨?_, ?_, ?_⟩
  · cases q <;> simp [queue, handleWrite, setSession, SerialSession.complete,
      SerialSession.handlerWriteBody, SerialSession.doWrite, WriteSide.complete,
      WriteSide.handlerWriteBody, WriteSide.doWrite, WriteSide.issue, hq]
  · cases q <;> simp [outstanding, handleWrite, setSession, SerialSession.complete,
      SerialSession.handlerWriteBody, SerialSession.doWrite, WriteSide.complete,
      WriteSide.handlerWriteBody, WriteSide.doWrite, WriteSide.issue, hq, hout]
  · simp [handleWrite, setSession, giveBack, hq]

@[simp] theorem read_handleWrite (w : ConnectionMgr) (sid : Nat) (op : WriteOp MsgPtr) :
    (w.handleWrite sid op).read sid = w.read sid := by
  simp [handleWrite, setSession, ConnectionMgr.read]

section Writes

variable {sid : Nat} {request : Request} {held : Multiset MsgPtr} {w : ConnectionMgr}
  {sent : WriteOp MsgPtr → Nat}

/-- The handler of a write: what is left in the queue is as it was. -/
theorem kept_handleWrite (h : Kept sid request held w sent) {part : Part} {p : MsgPtr}
    {q : List MsgPtr} (hq : queue w sid = p :: q) (hout : outstanding w sid = [⟨part, p⟩]) :
    Kept sid request held (w.handleWrite sid ⟨part, p⟩)
        (fun o => if o = ⟨part, p⟩ then 0 else sent o) ∧
      ∀ p' ∈ queue (w.handleWrite sid ⟨part, p⟩) sid, p' ∈ queue w sid ∧
        (w.handleWrite sid ⟨part, p⟩).alloc.message p' = w.alloc.message p' := by
  have hunsent : ∀ op : WriteOp MsgPtr, (if op = ⟨part, p⟩ then 0 else sent op) = 0 := by
    intro op
    split
    · rfl
    · rename_i hne
      exact h.unsent op (by rw [hout]; simpa using hne)
  cases part with
  | header =>
    obtain ⟨hq', -, halloc⟩ := handleWrite_header hq hout
    rw [hq', ← hq]
    refine ⟨⟨?_, ?_, fun op _ => hunsent op⟩, fun p' hp' => ⟨hp', by rw [halloc]⟩⟩
    · rw [hq', halloc, ← hq]
      exact h.owns
    · rw [hq', halloc, ← hq]
      exact h.messages
  | body =>
    obtain ⟨hq', -, halloc⟩ := handleWrite_body hq hout
    have hown := h.owns
    rw [hq, ← Multiset.cons_coe, Multiset.cons_add] at hown
    have hpasses := Allocator.passes_dellocateMsgBuffer hown
    have hsame : ∀ p' ∈ q, (w.alloc.dellocateMsgBuffer p).message p' = w.alloc.message p' := by
      intro p' hp'
      have hmem : p' ∈ (q : Multiset MsgPtr) + held := Multiset.mem_add.mpr (Or.inl hp')
      exact congrArg (Option.map Msg.val)
        (hpasses.same p' (Multiset.mem_cons_of_mem hmem) hmem)
    refine ⟨⟨?_, fun p' hp' => ?_, fun op _ => hunsent op⟩, fun p' hp' => ?_⟩
    · rw [hq', halloc]
      exact hpasses.owns
    · rw [hq'] at hp'
      rw [halloc, hsame p' hp']
      exact h.messages p' (by rw [hq]; exact List.mem_cons_of_mem p hp')
    · rw [hq'] at hp'
      rw [halloc, hq]
      exact ⟨List.mem_cons_of_mem p hp', hsame p' hp'⟩

/-- A write that has come to its end has sent its part of the frame. -/
theorem sent_all (h : Kept sid request held w sent) {part : Part} {p : MsgPtr}
    (hp : p ∈ queue w sid) (hsent : sent ⟨part, p⟩ = (w.buffer ⟨part, p⟩).length) :
    match part with
    | .header => sent ⟨.header, p⟩ = headerSize
    | .body => sent ⟨.body, p⟩ = request.bytes.length := by
  obtain ⟨m, hm, -, hbody⟩ := h.messages p hp
  rw [buffer_of_message hm hbody] at hsent
  cases part with
  | header => exact hsent.trans m.header.length_toBytes
  | body => exact hsent

theorem idle_handleWrite (h : Kept sid request held w sent) (hidle : Idle sid request w sent)
    {op : WriteOp MsgPtr} (hop : op ∈ outstanding w sid)
    (hsent : sent op = (w.buffer op).length) :
    Idle sid request (w.handleWrite sid op) (fun o => if o = op then 0 else sent o) ∧
      Kept sid request held (w.handleWrite sid op) (fun o => if o = op then 0 else sent o) := by
  cases hidle with
  | empty _ hout =>
    rw [hout] at hop
    cases hop
  | spent part p hq hout hall =>
    rw [hout] at hop
    obtain rfl : op = ⟨part, p⟩ := by simpa using hop
    refine ⟨?_, (kept_handleWrite h hq hout).1⟩
    have hdone := sent_all h (by rw [hq]; exact List.mem_singleton_self p) hsent
    cases part with
    | header =>
      obtain ⟨hq', hout', -⟩ := handleWrite_header hq hout
      refine .spent .body p hq' hout' ?_
      have hzero : sent ⟨.body, p⟩ = 0 := h.unsent _ (by rw [hout]; simp)
      simp only [offset] at hall ⊢
      rw [if_neg (by simp), hzero]
      omega
    | body =>
      obtain ⟨hq', hout', -⟩ := handleWrite_body hq hout
      exact .empty hq' hout'

theorem writing_handleWrite (h : Kept sid request held w sent) {p : MsgPtr} {c : Nat}
    (hwriting : Writing sid request w sent p c) {op : WriteOp MsgPtr}
    (hop : op ∈ outstanding w sid) (hsent : sent op = (w.buffer op).length) :
    Writing sid request (w.handleWrite sid op) (fun o => if o = op then 0 else sent o) p c ∧
      Kept sid request held (w.handleWrite sid op) (fun o => if o = op then 0 else sent o) ∧
      ∀ p' ∈ queue (w.handleWrite sid op) sid, p' ∈ queue w sid ∧
        (w.handleWrite sid op).alloc.message p' = w.alloc.message p' := by
  cases hwriting with
  | written _ hout =>
    rw [hout] at hop
    cases hop
  | behind part p' hq hout hall =>
    rw [hout] at hop
    obtain rfl : op = ⟨part, p'⟩ := by simpa using hop
    refine ⟨?_, kept_handleWrite h hq hout⟩
    have hdone := sent_all h (by rw [hq]; exact List.mem_cons_self) hsent
    cases part with
    | header =>
      obtain ⟨hq', hout', -⟩ := handleWrite_header hq hout
      refine .behind .body p' hq' hout' ?_
      have hzero : sent ⟨.body, p'⟩ = 0 := h.unsent _ (by rw [hout]; simp)
      simp only [offset] at hall ⊢
      rw [if_neg (by simp), hzero]
      omega
    | body =>
      obtain ⟨hq', hout', -⟩ := handleWrite_body hq hout
      refine .front .header 0 hq' hout' ?_
      have hzero : sent ⟨.header, p⟩ = 0 := h.unsent _ (by rw [hout]; simp)
      rw [if_neg (by simp), hzero]
      rfl
  | front part _ hq hout hc =>
    rw [hout] at hop
    obtain rfl : op = ⟨part, p⟩ := by simpa using hop
    refine ⟨?_, kept_handleWrite h hq hout⟩
    have hdone := sent_all h (by rw [hq]; exact List.mem_singleton_self p) hsent
    cases part with
    | header =>
      obtain ⟨hq', hout', -⟩ := handleWrite_header hq hout
      refine .front .body _ hq' hout' ?_
      have hzero : sent ⟨.body, p⟩ = 0 := h.unsent _ (by rw [hout]; simp)
      rw [if_neg (by simp), hzero, hc, hdone]
      rfl
    | body =>
      obtain ⟨hq', hout', -⟩ := handleWrite_body hq hout
      have hend : c = frameSize request := by
        rw [hc, hdone]
        rfl
      rw [hend]
      exact .written hq' hout'

/-- A write that has come to its end sends nothing more. -/
theorem not_sends (h : Kept sid request held w sent) {part : Part} {p : MsgPtr} {k : Nat}
    (hp : p ∈ queue w sid) (hall : offset part + sent ⟨part, p⟩ = frameSize request)
    (hpos : 0 < k) : ¬ sent ⟨part, p⟩ + k ≤ (w.buffer ⟨part, p⟩).length := by
  have hle := length_buffer h hp part
  omega

theorem idle_sends (h : Kept sid request held w sent) (hidle : Idle sid request w sent)
    {op : WriteOp MsgPtr} {k : Nat} (hop : op ∈ outstanding w sid) (hpos : 0 < k) :
    ¬ sent op + k ≤ (w.buffer op).length := by
  cases hidle with
  | empty _ hout =>
    rw [hout] at hop
    cases hop
  | spent part p hq hout hall =>
    rw [hout] at hop
    obtain rfl : op = ⟨part, p⟩ := by simpa using hop
    exact not_sends h (by rw [hq]; exact List.mem_singleton_self p) hall hpos

/-- The session sends a piece of the frame. -/
theorem writing_sends (h : Kept sid request held w sent) {p : MsgPtr} {c k : Nat} {hdr : HDR}
    (hwriting : Writing sid request w sent p c)
    (hmsg : p ∈ queue w sid → ∃ m, w.alloc.message p = some m ∧ m.header = hdr)
    {op : WriteOp MsgPtr} (hop : op ∈ outstanding w sid) (hpos : 0 < k)
    (hk : sent op + k ≤ (w.buffer op).length) :
    Writing sid request w (fun o => if o = op then sent op + k else sent o) p (c + k) ∧
      Kept sid request held w (fun o => if o = op then sent op + k else sent o) ∧
      ((w.buffer op).drop (sent op)).take k = ((frame request hdr).drop c).take k ∧
      c + k ≤ frameSize request := by
  have hkept : Kept sid request held w (fun o => if o = op then sent op + k else sent o) := by
    refine ⟨h.owns, h.messages, fun o ho => ?_⟩
    rw [if_neg (fun he : o = op => ho (he ▸ hop))]
    exact h.unsent o ho
  cases hwriting with
  | written _ hout =>
    rw [hout] at hop
    cases hop
  | behind part p' hq hout hall =>
    rw [hout] at hop
    obtain rfl : op = ⟨part, p'⟩ := by simpa using hop
    exact absurd hk (not_sends h (by rw [hq]; exact List.mem_cons_self) hall hpos)
  | front part _ hq hout hc =>
    rw [hout] at hop
    obtain rfl : op = ⟨part, p⟩ := by simpa using hop
    have hp : p ∈ queue w sid := by rw [hq]; exact List.mem_singleton_self p
    have hle := length_buffer h hp part
    obtain ⟨m, hm, rfl⟩ := hmsg hp
    obtain ⟨m', hm', -, hbody⟩ := h.messages p hp
    obtain rfl : m = m' := Option.some.inj (hm.symm.trans hm')
    have hbuffer := buffer_of_message hm hbody part
    refine ⟨.front part _ hq hout ?_, hkept, ?_, ?_⟩
    · rw [if_pos rfl, hc, Nat.add_assoc]
    · rw [hbuffer] at hk ⊢
      rw [hc]
      exact (take_drop_part request m.header part hk).symm
    · rw [hc]
      omega

end Writes

/-! ## The session makes a message of the frame -/

/-- `handler_read_body`: the message is behind the queue, and the next header
read is issued. -/
theorem handlerReadBody_echo {w : ConnectionMgr} {sid : Nat} {held : Multiset MsgPtr}
    (hown : w.alloc.Owns held)
    (hbuf : (w.read sid).buf.length = (w.read sid).header.len.toNat) :
    ∃ w' p m, w.handlerReadBody .unlimited sid false = .ok w' ∧ w'.alloc.Owns (p ::ₘ held) ∧
      (∀ q ∈ held, w'.alloc.message q = w.alloc.message q) ∧ w'.alloc.message p = some m ∧
      m.header.len = (w.read sid).header.len ∧ m.body = (w.read sid).buf ∧
      (w'.sessions sid).write = (w.sessions sid).write.write p ∧
      (w'.read sid).calls = (w.read sid).calls ++ [.asyncRead .header] ∧
      (w'.read sid).buf = [] := by
  have hn : UInt32.ofNat (w.read sid).buf.length = (w.read sid).header.len := by
    rw [hbuf, UInt32.ofNat_toNat]
  obtain ⟨⟨alloc, p⟩, hnew⟩ := (Allocator.newMessage_isOk_iff hown .unlimited (w.read sid).header
    (w.read sid).buf (w.read sid).header.len).mpr ⟨Or.inr rfl, Or.inr rfl⟩
  obtain ⟨hown', m, hm, hbody, hheader⟩ := Allocator.newMessage_ok hown hbuf hnew
  have hok : w.handlerReadBody .unlimited sid false = .ok ((({ w with alloc := alloc }.setRead sid
      { w.read sid with buf := [] }).processMsgBusiness sid p).doRead sid) := by
    simp only [handlerReadBody, Bool.false_eq_true, if_false, processMsg, hn, hnew]
  refine ⟨_, p, m, hok, hown', ?_, hm, ?_, hbody, ?_, ?_, ?_⟩
  · intro q hq
    exact congrArg (Option.map Msg.val) (Allocator.newMessage_objects hown hnew hq)
  · rw [hheader]
    rfl
  · simp [doRead, processMsgBusiness, ConnectionMgr.write, setRead, setSession]
  · simp [doRead, processMsgBusiness, ReadSide.issue]
  · simp [doRead, processMsgBusiness, ReadSide.issue]

theorem coe_append_singleton (q : List MsgPtr) (p : MsgPtr) (held : Multiset MsgPtr) :
    (↑(q ++ [p]) : Multiset MsgPtr) + held = p ::ₘ (↑q + held) := by
  rw [← Multiset.coe_add, Multiset.coe_singleton, Multiset.add_comm (q : Multiset MsgPtr),
    Multiset.singleton_add, Multiset.cons_add]

/-- The session has read all of the frame, and its handler runs. -/
theorem idle_echo {sid : Nat} {request : Request} {held : Multiset MsgPtr} {w : ConnectionMgr}
    {sent : WriteOp MsgPtr → Nat} {h : HDR} (hlen : h.len = request.length)
    (hkept : Kept sid request held w sent) (hidle : Idle sid request w sent)
    (hcalls : (w.read sid).calls = [.handler .body false])
    (hbuf : (w.read sid).buf = request.bytes) (hheader : (w.read sid).header = h) :
    ∃ w' p m, w.runHandler .unlimited sid .body false = .ok w' ∧ Kept sid request held w' sent ∧
      Writing sid request w' sent p 0 ∧ w'.alloc.message p = some m ∧
      m.header.len = request.length ∧ (w'.read sid).calls = [.asyncRead .header] ∧
      (w'.read sid).buf = [] := by
  let w₀ := w.setRead sid { w.read sid with calls := [] }
  have hread : w₀.read sid = { w.read sid with calls := [] } := read_setRead _ _ _
  have hlength : (w₀.read sid).buf.length = (w₀.read sid).header.len.toNat := by
    simp only [hread, hbuf, hheader, hlen, request.length_toNat]
  obtain ⟨w', p, m, hok, hown, hsame, hm, hmlen, hmbody, hwrite, hcalls', hbuf'⟩ :=
    @handlerReadBody_echo w₀ sid _ hkept.owns hlength
  rw [hread] at hmlen hmbody hcalls'
  have hwrite' : (w'.sessions sid).write = (w.sessions sid).write.write p := by
    rw [hwrite]
    simp [w₀, setRead, setSession]
  obtain ⟨hqueue, hout⟩ := (w.sessions sid).write.write_spec p
  rw [← hwrite'] at hqueue hout
  have hmlen : m.header.len = request.length := by rw [hmlen, hheader, hlen]
  have hmbody : m.body = request.bytes := hmbody.trans hbuf
  refine ⟨w', p, m, (runHandler_body hcalls .unlimited).trans hok, ⟨?_, ?_, ?_⟩, ?_, hm, hmlen,
    hcalls', hbuf'⟩
  · rw [queue, hqueue, coe_append_singleton]
    exact hown
  · intro p' hp'
    rw [queue, hqueue] at hp'
    rcases List.mem_append.mp hp' with hp' | hp'
    · rw [hsame p' (Multiset.mem_add.mpr (Or.inl hp'))]
      exact hkept.messages p' hp'
    · obtain rfl := List.mem_singleton.mp hp'
      exact ⟨m, hm, hmlen, hmbody⟩
  · intro op hop
    refine hkept.unsent op fun hmem => hop ?_
    rw [outstanding, hout]
    split
    · exact List.mem_append.mpr (Or.inl hmem)
    · exact hmem
  · cases hidle with
    | empty hq hout' =>
      simp only [queue, outstanding] at hq hout'
      rw [hq, List.nil_append] at hqueue
      rw [if_pos hq, hout', List.nil_append] at hout
      refine .front .header 0 hqueue hout ?_
      have hzero : sent ⟨.header, p⟩ = 0 := hkept.unsent _ (by simp [outstanding, hout'])
      rw [hzero]
      rfl
    | spent part p' hq hout' hall =>
      simp only [queue, outstanding] at hq hout'
      rw [hq] at hqueue
      rw [if_neg (by simp [hq]), hout'] at hout
      exact .behind part p' hqueue hout hall

/-! ## Where the frame is -/

inductive Phase (sid : Nat) (request : Request) (s : State) : Prop
  /-- the client has sent `a` bytes of it and the session has read `b` -/
  | toServer (h : HDR) (a b : Nat) : h.len = request.length → Sends request h a s.client →
      Reads request h (s.mgr.read sid) b → b ≤ a → s.up = transit (frame request h) b a →
      s.down = [] → Idle sid request s.mgr s.sent →
      s.client.written = s.client.received.length * frameSize request + a →
      Phase sid request s
  /-- the session has sent `c` bytes of it and the client has got `d` -/
  | toClient (h : HDR) (p : MsgPtr) (c d : Nat) : h.len = request.length →
      Receives request h d s.client → d ≤ c → c ≤ frameSize request →
      s.down = transit (frame request h) d c → s.up = [] →
      (s.mgr.read sid).calls = [.asyncRead .header] → (s.mgr.read sid).buf = [] →
      Writing sid request s.mgr s.sent p c →
      (p ∈ queue s.mgr sid → ∃ m, s.mgr.alloc.message p = some m ∧ m.header = h) →
      s.client.written = (s.client.received.length + 1) * frameSize request →
      Phase sid request s

/-- What holds between any two steps. -/
structure Echoing (sid : Nat) (request : Request) (held : Multiset MsgPtr) (s : State) : Prop where
  kept : Kept sid request held s.mgr s.sent
  phase : Phase sid request s
  frames : ∀ f ∈ s.client.received, f = (request.length, request.bytes)
  asserted : s.client.failed = false

theorem frameSize_pos (request : Request) : 0 < frameSize request :=
  Nat.lt_of_lt_of_le (show 0 < headerSize by decide) (Nat.le_add_right _ _)

section Steps

variable {sid nTotalCnt : Nat} {request : Request} {held : Multiset MsgPtr} {s : State}

theorem echoing_clientSends (h : Echoing sid request held s) {k : Nat} (hpos : 0 < k)
    (hk : k ≤ (s.client.outgoing request).length) :
    Echoing sid request held { s with
      client := s.client.sends k
      up := s.up ++ (s.client.outgoing request).take k } := by
  cases h.phase with
  | toClient hdr p c d hlen hr =>
    rw [hr.nothing_left] at hk
    exact absurd hk (Nat.not_le.mpr hpos)
  | toServer hdr a b hlen hs hreads hb hup hdown hidle hwritten =>
    obtain ⟨hs', htake, hrecord, hwritten'⟩ := client_sends hlen hs hpos hk
    constructor
    · exact h.kept
    · refine .toServer hdr (a + k) b hlen hs' hreads (Nat.le_add_right_of_le hb) ?_ hdown hidle ?_
      · show s.up ++ _ = _
        rw [hup, htake]
        apply transit_put hb
        rw [length_frame]
        exact hs.le
      · show (s.client.sends k).written = (s.client.sends k).received.length * _ + _
        rw [hwritten', hrecord.received, hwritten, Nat.add_assoc]
    · intro f hf
      exact h.frames f (hrecord.received ▸ hf)
    · exact hrecord.failed.trans h.asserted

theorem echoing_clientReceives (h : Echoing sid request held s) {k : Nat} (hpos : 0 < k)
    (hk : k ≤ s.client.wanted) (hdown : k ≤ s.down.length) :
    Echoing sid request held { s with
      client := s.client.receives (s.down.take k)
      down := s.down.drop k } := by
  cases h.phase with
  | toServer hdr a b hlen hs hreads hb hup hnone =>
    rw [hnone] at hdown
    exact absurd hdown (Nat.not_le.mpr hpos)
  | toClient hdr p c d hlen hr hd hc hdown' hup hcalls hbuf hwriting hmsg hwritten =>
    rw [hdown', length_transit (by rw [length_frame]; exact hc)] at hdown
    have hle : d + k ≤ c := by omega
    obtain ⟨hr', hrecord, hwritten'⟩ := client_receives hlen hr hpos hk
    rw [← take_transit hle, ← hdown'] at hr' hrecord hwritten'
    constructor
    · exact h.kept
    · refine .toClient hdr p c (d + k) hlen hr' hle hc ?_ hup hcalls hbuf hwriting hmsg ?_
      · show s.down.drop k = _
        rw [hdown', drop_transit]
      · show (s.client.receives _).written = ((s.client.receives _).received.length + 1) * _
        rw [hwritten', hrecord.received, hwritten]
    · intro f hf
      exact h.frames f (hrecord.received ▸ hf)
    · exact hrecord.failed.trans h.asserted

/-- A session that has sent all of a frame is idle. -/
theorem Writing.idle {w : ConnectionMgr} {sent : WriteOp MsgPtr → Nat} {p : MsgPtr}
    (h : Writing sid request w sent p (frameSize request)) : Idle sid request w sent := by
  generalize hc : frameSize request = c at h
  cases h with
  | behind => exact absurd hc (frameSize_pos request).ne'
  | front part _ hq hout hall => exact .spent part p hq hout (hall.symm.trans hc.symm)
  | written hq hout => exact .empty hq hout

theorem echoing_clientReturns (h : Echoing sid request held s) (hp : s.client.point ≠ .done)
    (hout : s.client.outgoing request = []) (hwant : s.client.wanted = 0) :
    Echoing sid request held { s with client := s.client.returns nTotalCnt } := by
  cases h.phase with
  | toServer hdr a b hlen hs hreads hb hup hdown hidle hwritten =>
    obtain ⟨hs', hrecord, hwritten'⟩ := client_returns nTotalCnt hlen hs hp hout hwant
    constructor
    · exact h.kept
    · refine .toServer hdr a b hlen hs' hreads hb hup hdown hidle ?_
      show (s.client.returns _).written = (s.client.returns _).received.length * _ + _
      rw [hwritten', hrecord.received, hwritten]
    · intro f hf
      exact h.frames f (hrecord.received ▸ hf)
    · exact hrecord.failed.trans h.asserted
  | toClient hdr p c d hlen hr hd hc hdown hup hcalls hbuf hwriting hmsg hwritten =>
    rcases read_returns nTotalCnt hlen hr hp hwant with
      ⟨hr', hrecord, hwritten'⟩ | ⟨hall, hs', hreceived, hfailed, hwritten'⟩
    · constructor
      · exact h.kept
      · refine .toClient hdr p c d hlen hr' hd hc hdown hup hcalls hbuf hwriting hmsg ?_
        show (s.client.returns _).written = ((s.client.returns _).received.length + 1) * _
        rw [hwritten', hrecord.received, hwritten]
      · intro f hf
        exact h.frames f (hrecord.received ▸ hf)
      · exact hrecord.failed.trans h.asserted
    · -- the frame has come back, and the next one begins
      obtain rfl : c = frameSize request := by omega
      constructor
      · exact h.kept
      · refine .toServer hdr 0 0 hlen hs' (.header hcalls hbuf) (Nat.le_refl _) ?_ ?_
          hwriting.idle ?_
        · show s.up = _
          rw [hup, transit_empty _ (Nat.le_refl _)]
        · show s.down = _
          rw [hdown, hall, transit_empty _ (Nat.le_refl _)]
        · show (s.client.returns _).written = (s.client.returns _).received.length * _ + _
          rw [hwritten', hreceived, hwritten, List.length_append, List.length_singleton]
          exact (Nat.add_zero _).symm
      · intro f hf
        rw [show (s.client.returns nTotalCnt).received = _ from hreceived] at hf
        rcases List.mem_append.mp hf with hf | hf
        · exact h.frames f hf
        · exact List.mem_singleton.mp hf
      · exact hfailed.trans h.asserted

theorem echoing_reads (h : Echoing sid request held s) {op : ReadOp}
    (hop : .asyncRead op ∈ (s.mgr.read sid).calls) (hsize : op.size ≤ s.up.length) :
    Echoing sid request held { s with
      mgr := s.mgr.setRead sid ((s.mgr.read sid).transfer op (s.up.take op.size) false)
      up := s.up.drop op.size } := by
  obtain ⟨hkept, hidle'⟩ := kept_setRead h.kept
    ((s.mgr.read sid).transfer op (s.up.take op.size) false)
  cases h.phase with
  | toClient hdr p c d hlen hr hd hc hdown hup hcalls =>
    rw [hcalls] at hop
    obtain rfl : op = .header := by simpa using hop
    rw [hup] at hsize
    exact absurd hsize (by decide)
  | toServer hdr a b hlen hs hreads hb hup hdown hidle hwritten =>
    rw [hup] at hsize
    obtain ⟨hreads', hle⟩ := reads_transfer hlen hreads hb hs.le hop hsize
    rw [← hup] at hreads'
    refine ⟨hkept, .toServer hdr a (b + op.size) hlen hs ?_ hle ?_ hdown (hidle' hidle) hwritten,
      h.frames, h.asserted⟩
    · show Reads request hdr ((s.mgr.setRead sid _).read sid) _
      rw [read_setRead]
      exact hreads'
    · show s.up.drop op.size = _
      rw [hup, drop_transit]

theorem echoing_handlesRead (h : Echoing sid request held s) {part : Part} {mgr : ConnectionMgr}
    (hcall : .handler part false ∈ (s.mgr.read sid).calls)
    (hrun : s.mgr.runHandler .unlimited sid part false = .ok mgr) :
    Echoing sid request held { s with mgr := mgr } := by
  cases h.phase with
  | toClient hdr p c d hlen hr hd hc hdown hup hcalls =>
    rw [hcalls] at hcall
    simp at hcall
  | toServer hdr a b hlen hs hreads hb hup hdown hidle hwritten =>
    cases hreads with
    | header hc | body hc =>
      rw [hc] at hcall
      simp at hcall
    | headerRead hc hbuf hheader =>
      rw [hc] at hcall
      obtain rfl : part = .header := by simpa using hcall
      obtain rfl := Except.ok.inj
        (hrun.symm.trans ((runHandler_header hc .unlimited).trans (if_pos rfl)))
      obtain ⟨hkept, hidle'⟩ := kept_setRead h.kept
        (ReadSide.issue { s.mgr.read sid with calls := [] } (.body (s.mgr.read sid).header.len))
      refine ⟨hkept, .toServer hdr a headerSize hlen hs ?_ hb hup hdown (hidle' hidle) hwritten,
        h.frames, h.asserted⟩
      show Reads request hdr ((s.mgr.setRead sid _).read sid) _
      rw [read_setRead]
      exact .body (by rw [← hheader]) hbuf hheader
    | bodyRead hc hbuf hheader =>
      rw [hc] at hcall
      obtain rfl : part = .body := by simpa using hcall
      obtain ⟨w', p, m, hok, hkept, hwriting, hm, hmlen, hcalls, hbuf'⟩ :=
        idle_echo hlen h.kept hidle hc hbuf hheader
      obtain rfl : mgr = w' := Except.ok.inj (hrun.symm.trans hok)
      obtain rfl : a = frameSize request := Nat.le_antisymm hs.le hb
      refine ⟨hkept, .toClient m.header p 0 0 hmlen (hs.receives hlen) (Nat.le_refl _)
        (Nat.zero_le _) ?_ ?_ hcalls hbuf' hwriting (fun _ => ⟨m, hm, rfl⟩) ?_,
        h.frames, h.asserted⟩
      · show s.down = _
        rw [hdown, transit_empty _ (Nat.le_refl _)]
      · show s.up = _
        rw [hup, transit_empty _ (Nat.le_refl _)]
      · show s.client.written = _
        rw [hwritten, Nat.succ_mul]

theorem echoing_sends (h : Echoing sid request held s) {op : WriteOp MsgPtr} {k : Nat}
    (hop : op ∈ outstanding s.mgr sid) (hpos : 0 < k)
    (hk : s.sent op + k ≤ (s.mgr.buffer op).length) :
    Echoing sid request held { s with
      sent := fun o => if o = op then s.sent op + k else s.sent o
      down := s.down ++ ((s.mgr.buffer op).drop (s.sent op)).take k } := by
  cases h.phase with
  | toServer hdr a b hlen hs hreads hb hup hdown hidle =>
    exact absurd hk (idle_sends h.kept hidle hop hpos)
  | toClient hdr p c d hlen hr hd hc hdown hup hcalls hbuf hwriting hmsg hwritten =>
    obtain ⟨hwriting', hkept, hbytes, hle⟩ := writing_sends h.kept hwriting hmsg hop hpos hk
    refine ⟨hkept, .toClient hdr p (c + k) d hlen hr (Nat.le_add_right_of_le hd) hle ?_ hup hcalls
      hbuf hwriting' hmsg hwritten, h.frames, h.asserted⟩
    show s.down ++ _ = _
    rw [hdown, hbytes]
    apply transit_put hd
    rw [length_frame]
    exact hc

theorem echoing_handlesWrite (h : Echoing sid request held s) {op : WriteOp MsgPtr}
    (hop : op ∈ outstanding s.mgr sid) (hsent : s.sent op = (s.mgr.buffer op).length) :
    Echoing sid request held { s with
      mgr := s.mgr.handleWrite sid op
      sent := fun o => if o = op then 0 else s.sent o } := by
  have hread : (s.mgr.handleWrite sid op).read sid = s.mgr.read sid := read_handleWrite _ _ _
  cases h.phase with
  | toServer hdr a b hlen hs hreads hb hup hdown hidle hwritten =>
    obtain ⟨hidle', hkept⟩ := idle_handleWrite h.kept hidle hop hsent
    exact ⟨hkept, .toServer hdr a b hlen hs (hread ▸ hreads) hb hup hdown hidle' hwritten,
      h.frames, h.asserted⟩
  | toClient hdr p c d hlen hr hd hc hdown hup hcalls hbuf hwriting hmsg hwritten =>
    obtain ⟨hwriting', hkept, hsame⟩ := writing_handleWrite h.kept hwriting hop hsent
    refine ⟨hkept, .toClient hdr p c d hlen hr hd hc hdown hup (hread ▸ hcalls) (hread ▸ hbuf)
      hwriting' ?_ hwritten, h.frames, h.asserted⟩
    intro hp
    obtain ⟨hin, hmessage⟩ := hsame p hp
    rw [hmessage]
    exact hmsg hin

theorem echoing_step {t : State} {a : Action} (h : Echoing sid request held s)
    (hs : step sid nTotalCnt request s a = some t) : Echoing sid request held t := by
  cases a with
  | clientSends k =>
    simp only [step, Option.ite_none_right_eq_some, Option.some.injEq] at hs
    obtain ⟨⟨hpos, hk⟩, rfl⟩ := hs
    exact echoing_clientSends h hpos hk
  | clientReceives k =>
    simp only [step, Option.ite_none_right_eq_some, Option.some.injEq] at hs
    obtain ⟨⟨hpos, hk, hdown⟩, rfl⟩ := hs
    exact echoing_clientReceives h hpos hk hdown
  | clientReturns =>
    simp only [step, Option.ite_none_right_eq_some, Option.some.injEq] at hs
    obtain ⟨⟨hp, hout, hwant⟩, rfl⟩ := hs
    exact echoing_clientReturns h hp hout hwant
  | reads op =>
    simp only [step, Option.ite_none_right_eq_some, Option.some.injEq] at hs
    obtain ⟨⟨hop, hsize⟩, rfl⟩ := hs
    exact echoing_reads h hop hsize
  | handlesRead part =>
    simp only [step, Option.ite_none_right_eq_some] at hs
    obtain ⟨hcall, hs⟩ := hs
    split at hs
    · rename_i mgr hrun
      obtain rfl := Option.some.inj hs
      exact echoing_handlesRead h hcall hrun
    · cases hs
  | sends op k =>
    simp only [step, Option.ite_none_right_eq_some, Option.some.injEq] at hs
    obtain ⟨⟨hop, hpos, hk⟩, rfl⟩ := hs
    exact echoing_sends h hop hpos hk
  | handlesWrite op =>
    simp only [step, Option.ite_none_right_eq_some, Option.some.injEq] at hs
    obtain ⟨⟨hop, hsent⟩, rfl⟩ := hs
    exact echoing_handlesWrite h hop hsent

end Steps

/-! ## All rounds -/

theorem echoing_start {sid : Nat} {request : Request} {mgr : ConnectionMgr}
    (h : Accepted sid mgr) : ∃ held, Echoing sid request held (start mgr request) := by
  obtain ⟨header, hreading⟩ := h.reading
  obtain ⟨held, hown⟩ := h.owns
  have hq : queue mgr sid = [] := by rw [queue, h.writing]; rfl
  have hout : outstanding mgr sid = [] := by rw [outstanding, h.writing]; rfl
  have hreads : Reads request (Client.init request).header (mgr.read sid) 0 := by
    apply Reads.header <;> rw [hreading] <;> rfl
  refine ⟨held, ⟨?_, ?_, fun _ _ => rfl⟩, ?_, ?_, rfl⟩
  · show mgr.alloc.Owns (↑(queue mgr sid) + held)
    rw [hq, Multiset.coe_nil, Multiset.zero_add]
    exact hown
  · intro p hp
    rw [show queue (start mgr request).mgr sid = _ from hq] at hp
    cases hp
  · refine .toServer (Client.init request).header 0 0 rfl ?_ hreads (Nat.le_refl _) rfl rfl
      (.empty hq hout) ?_
    · exact ⟨rfl, Nat.zero_le _, rfl, rfl⟩
    · show 0 = 0 * _ + 0
      rw [Nat.zero_mul]
  · intro f hf
    cases hf

structure RoundTrip (sid : Nat) (request : Request) (s : State) : Prop where
  /-- every frame that comes back is the one that was sent first -/
  frames : ∀ f ∈ s.client.received, f = (request.length, request.bytes)
  /-- a byte of frame `k + 1` is sent only when frame `k` is back -/
  inTurn : ∀ k, k * frameSize request < s.client.written → k ≤ s.client.received.length
  asserted : s.client.failed = false
  queue : (s.mgr.sessions sid).write.session.msgQueue.length ≤ 2

theorem Echoing.roundTrip {sid : Nat} {request : Request} {held : Multiset MsgPtr} {s : State}
    (h : Echoing sid request held s) : RoundTrip sid request s := by
  constructor
  · exact h.frames
  · intro k hk
    have hwritten : s.client.written ≤ (s.client.received.length + 1) * frameSize request := by
      cases h.phase with
      | toServer hdr a b hlen hs _ _ _ _ _ hwritten =>
        rw [hwritten, Nat.succ_mul]
        exact Nat.add_le_add_left hs.le _
      | toClient hdr p c d _ _ _ _ _ _ _ _ _ _ hwritten => exact hwritten.le
    have hlt : k < s.client.received.length + 1 :=
      Nat.lt_of_mul_lt_mul_right (Nat.lt_of_lt_of_le hk hwritten)
    exact Nat.le_of_lt_succ hlt
  · exact h.asserted
  · show (RunConnection.queue s.mgr sid).length ≤ 2
    cases h.phase with
    | toServer hdr a b _ _ _ _ _ _ hidle =>
      cases hidle with
      | empty hq => rw [hq]; exact Nat.zero_le _
      | spent _ _ hq => rw [hq]; exact Nat.le_succ 1
    | toClient hdr p c d _ _ _ _ _ _ _ _ hwriting =>
      cases hwriting with
      | behind _ _ hq => rw [hq]; exact Nat.le_refl 2
      | front _ _ hq => rw [hq]; exact Nat.le_succ 1
      | written hq => rw [hq]; exact Nat.zero_le _

/-- Whatever the request, the number of rounds and the order of the steps:
between any two of them the rounds so far have gone as they should. -/
theorem echo_rounds (sid nTotalCnt : Nat) (request : Request) (mgr : ConnectionMgr)
    (hmgr : Accepted sid mgr) (s : State)
    (h : Reach (step sid nTotalCnt request) always (start mgr request) s) :
    RoundTrip sid request s := by
  obtain ⟨held, hstart⟩ := echoing_start hmgr
  have hrun : Echoing sid request held s := by
    apply h.invariant hstart
    intro s a t _ hs _ hstep
    exact echoing_step hs hstep
  exact hrun.roundTrip

/-- The session has read the second frame before the handler of its last write
has run: two messages are in its queue. -/
theorem echo_rounds_overlap : ∃ s : State, s.client.received = [(2, [7, 8])] ∧
    (s.mgr.sessions 0).write.session.msgQueue.length = 2 ∧
    RoundTrip 0 ⟨[7, 8], by decide⟩ s := by
  let request : Request := ⟨[7, 8], by decide⟩
  let p : MsgPtr := 0
  let acts : List Action :=
    -- the request, in three pieces
    [.clientSends 5, .clientSends 7, .clientReturns, .clientSends 2, .clientReturns,
      .reads .header, .handlesRead .header, .reads (.body 2), .handlesRead .body,
      .sends ⟨.header, p⟩ 12, .handlesWrite ⟨.header, p⟩, .sends ⟨.body, p⟩ 2,
      .clientReceives 4, .clientReceives 8, .clientReturns, .clientReceives 2, .clientReturns,
      -- and once more
      .clientSends 12, .clientReturns, .clientSends 2, .clientReturns,
      .reads .header, .handlesRead .header, .reads (.body 2), .handlesRead .body]
  have hrun : (exec (step 0 100 request) (start ReadLoop.started request) acts).map (fun s =>
      (s.client.received, (s.mgr.sessions 0).write.session.msgQueue.length)) =
        some ([(2, [7, 8])], 2) := by
    decide +kernel
  obtain ⟨s, hs, hseen⟩ := Option.map_eq_some_iff.mp hrun
  obtain ⟨hreceived, hqueue⟩ := Prod.mk.inj hseen
  have haccepted : Accepted 0 ReadLoop.started := ⟨ReadLoop.started_started, rfl⟩
  exact ⟨s, hreceived, hqueue,
    echo_rounds 0 100 request ReadLoop.started haccepted s (Reach.of_exec acts hs)⟩

end AsioTcp.RunConnection
