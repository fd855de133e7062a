import AsioTcp.ConnectionMgr

/-!
# Recycled messages

Does it show whether a message comes out of the pool or is a fresh
`conn_msg(header)`, as without `MSG_BUFFER_ALLOCATOR`? The length and the body
do not tell, whatever the message was used for before: `set_body` sets both.
The other fields of the header tell: `allocate_msg_buffer` does not copy
`header` into the message that it takes from the pool, and no other function
writes these fields, so the message keeps the type, subtype and packet number
it was once constructed with. `recycled_as_fresh_iff` gives the exact
condition, for every history of the pool, and for the frames that `ProcessMsg`
echoes and the copies that `write_to_all` queues.
-/

namespace AsioTcp.PoolReuse

open Transition Allocator

/-- The allocator and the messages that its callers have in hand. -/
structure History where
  alloc : Allocator
  inHand : Multiset MsgPtr

inductive Action
  | allocate (mem : Memory) (header : HDR)
  | setBody (mem : Memory) (msg : MsgPtr) (data : List BYTE) (n : SizeT)
  | dellocate (msg : MsgPtr)

/-- A caller works with messages it has been given and gives each back once. -/
def step (s : History) : Action → Option History
  | .allocate mem header =>
    match s.alloc.allocateMsgBuffer mem header with
    | (alloc, .got msg) => some ⟨alloc, msg ::ₘ s.inHand⟩
    | (alloc, _) => some ⟨alloc, s.inHand⟩
  | .setBody mem msg data n =>
    if msg ∈ s.inHand then some ⟨(s.alloc.setBody mem msg data n).1, s.inHand⟩ else none
  | .dellocate msg =>
    if msg ∈ s.inHand then some ⟨s.alloc.dellocateMsgBuffer msg, s.inHand.erase msg⟩ else none

def start : History := ⟨.init, 0⟩

theorem owns_step {s t : History} {a : Action} (h : s.alloc.Owns s.inHand)
    (hs : step s a = some t) : t.alloc.Owns t.inHand := by
  cases a with
  | allocate mem header =>
    have hhanded := handed_allocateMsgBuffer h mem header
    simp only [step] at hs
    split at hs <;> rename_i hr <;> rw [hr] at hhanded <;> cases hs
    · exact hhanded.owns
    · rename_i r hgot
      cases r with
      | got msg => exact absurd rfl (hgot msg)
      | retry | badAlloc => exact hhanded.symm ▸ h
  | setBody mem msg data n =>
    simp only [step] at hs
    split at hs
    · rename_i hmsg
      cases hs
      exact (owns_setBody h hmsg mem data n).1
    · cases hs
  | dellocate msg =>
    simp only [step] at hs
    split at hs
    · rename_i hmsg
      cases hs
      rw [← Multiset.cons_erase hmsg] at h
      exact (passes_dellocateMsgBuffer h).owns
    · cases hs

theorem owns_of_reach {s : History} (h : Reach step always start s) :
    s.alloc.Owns s.inHand :=
  h.invariant (P := fun s => s.alloc.Owns s.inHand) owns_init
    fun _ _ _ _ hs _ hstep => owns_step hs hstep

/-! ## What a message shows -/

structure Seen where
  type : BYTE
  subtype : BYTE
  packNum : SizeT
  bodyLength : SizeT
  body : List BYTE
  deriving DecidableEq

def seen (m : ConnMsg) : Seen :=
  ⟨m.header.type, m.header.subtype, m.header.packNum, m.bodyLength, m.body⟩

/-- What a message for `header` with the body `data` is to show. -/
def asked (header : HDR) (data : List BYTE) : Seen :=
  ⟨header.type, header.subtype, header.packNum, UInt32.ofNat data.length, data⟩

/-- `conn_msg(header)` followed by `set_body(data)`: what the allocator gives
without `MSG_BUFFER_ALLOCATOR`. -/
def freshMessage (header : HDR) (data : List BYTE) (newChar : Option Nat) : ConnMsg × Bool :=
  (ConnMsg.ofHeader header).setBody data header.len newChar

def SameKind (h h' : HDR) : Prop :=
  h.type = h'.type ∧ h.subtype = h'.subtype ∧ h.packNum = h'.packNum

/-- The message that the pool would give for `header`, if it gives one, was
constructed for a header of the same type, subtype and packet number. -/
def Clean (a : Allocator) (header : HDR) : Prop :=
  ∀ p m, a.recycled header = some p → a.message p = some m → SameKind m.header header

/-- In each use of the allocator, a message for `header` with the body `data`
shows what it is to show, and what a fresh message would. -/
structure AsFresh (a : Allocator) (header : HDR) (data : List BYTE) : Prop where
  obtained : ∀ mem a' p, a.newMessage mem header data header.len = .ok (a', p) →
    ∃ m, a'.message p = some m ∧ seen m = asked header data ∧
      ∀ newChar, (freshMessage header data newChar).2 = false →
        seen m = seen (freshMessage header data newChar).1
  echoed : ∀ (w w' : ConnectionMgr) mem sid, w.alloc = a → (w.read sid).header = header →
    (w.read sid).buf = data → w.processMsg mem sid = .ok w' →
    ∃ p m, w'.alloc.message p = some m ∧ seen m = asked header data ∧
      (w'.read sid).business = (w.read sid).business ++ [m] ∧
      (w'.sessions sid).write.session.pushed = (w.sessions sid).write.session.pushed ++ [p]
  copied : ∀ (w w' : ConnectionMgr) mem sid msg, w.alloc = a → msg.header = header →
    msg.body = data → w.copyTo mem msg sid = .ok w' →
    ∃ p m, w'.alloc.message p = some m ∧ seen m = asked header data ∧
      (w'.sessions sid).write.session.pushed = (w.sessions sid).write.session.pushed ++ [p]

theorem seen_of_header {m : ConnMsg} {h header : HDR} {data : List BYTE}
    (hdata : data.length = header.len.toNat) (hbody : m.body = data)
    (hheader : m.header = h.setLen header.len) :
    seen m = asked header data ↔ SameKind h header := by
  have hlen : m.bodyLength = UInt32.ofNat data.length := by
    rw [hdata, UInt32.ofNat_toNat]
    simp [ConnMsg.bodyLength, hheader, HDR.setLen]
  simp [seen, asked, SameKind, hlen, hbody, hheader, HDR.setLen]

/-- A fresh message shows what it is to show. -/
theorem seen_freshMessage {header : HDR} {data : List BYTE} {newChar : Option Nat}
    (hdata : data.length = header.len.toNat) (hok : (freshMessage header data newChar).2 = false) :
    seen (freshMessage header data newChar).1 = asked header data :=
  (seen_of_header hdata (ConnMsg.setBody_body (ConnMsg.ofHeader_wellFormed header) hdata hok)
    (ConnMsg.setBody_header _ data header.len newChar)).mpr ⟨rfl, rfl, rfl⟩

theorem sameKind_handedHeader {a : Allocator} {header : HDR} (h : Clean a header) :
    SameKind (a.handedHeader header) header := by
  unfold handedHeader
  cases hr : a.recycled header with
  | none => exact ⟨rfl, rfl, rfl⟩
  | some p =>
    cases hm : a.message p with
    | none => simp [hm, SameKind]
    | some m => simpa [hm] using h p m hr hm

theorem clean_of_sameKind {a : Allocator} {header : HDR}
    (h : SameKind (a.handedHeader header) header) : Clean a header := by
  intro p m hp hm
  simpa [handedHeader, hp, hm] using h

theorem pushed_write (w : ConnectionMgr) (sid : Nat) (msg : MsgPtr) :
    ((w.write sid msg).sessions sid).write.session.pushed =
      (w.sessions sid).write.session.pushed ++ [msg] := by
  unfold ConnectionMgr.write SerialWrite.SerialSession.write WriteSide.write
  cases hq : (w.sessions sid).write.session.msgQueue with
  | nil => simp [ConnectionMgr.setSession, hq, SerialWrite.SerialSession.doWrite,
      WriteSide.doWrite, WriteSide.push, WriteSide.issue]
  | cons m q => simp [ConnectionMgr.setSession, hq, WriteSide.push]

/-! ## When a recycled message passes for a fresh one -/

theorem asFresh_of_clean {a : Allocator} {held : Multiset MsgPtr} (ha : a.Owns held)
    {header : HDR} {data : List BYTE} (hdata : data.length = header.len.toNat)
    (h : Clean a header) : AsFresh a header data := by
  have hget : ∀ {mem a' p}, a.newMessage mem header data header.len = .ok (a', p) →
      ∃ m, a'.message p = some m ∧ seen m = asked header data := by
    intro mem a' p hok
    obtain ⟨_, m, hm, hbody, hheader⟩ := newMessage_ok ha hdata hok
    exact ⟨m, hm, (seen_of_header hdata hbody hheader).mpr (sameKind_handedHeader h)⟩
  refine ⟨?_, ?_, ?_⟩
  · intro mem a' p hok
    obtain ⟨m, hm, hseen⟩ := hget hok
    exact ⟨m, hm, hseen, fun newChar hnew => hseen.trans (seen_freshMessage hdata hnew).symm⟩
  · rintro w w' mem sid hw hheader hbuf hok
    have hn : UInt32.ofNat data.length = header.len := by rw [hdata, UInt32.ofNat_toNat]
    simp only [ConnectionMgr.processMsg, hw, hheader, hbuf, hn] at hok
    split at hok
    · cases hok
    · rename_i alloc p hnew
      obtain ⟨m, hm, hseen⟩ := hget hnew
      cases hok
      refine ⟨p, m, hm, hseen, ?_, ?_⟩
      · simp [ConnectionMgr.processMsgBusiness, ConnectionMgr.read, ConnectionMgr.write,
          ConnectionMgr.setRead, ConnectionMgr.setSession, hm]
      · rw [ConnectionMgr.processMsgBusiness, pushed_write]
        simp [ConnectionMgr.setRead, ConnectionMgr.setSession]
  · rintro w w' mem sid msg hw rfl rfl hok
    simp only [ConnectionMgr.copyTo, ConnMsg.bodyLength, hw] at hok
    split at hok
    · cases hok
    · rename_i alloc p hnew
      obtain ⟨m, hm, hseen⟩ := hget hnew
      cases hok
      exact ⟨p, m, hm, hseen, pushed_write _ sid p⟩

/-- **Recycled messages.** After any history of the pool, messages for `header`
are what they are without the pool if and only if the message that the pool
would give was constructed for a header of the same kind. -/
theorem recycled_as_fresh_iff (s : History) (hs : Reach step always start s) (header : HDR)
    (data : List BYTE) (hdata : data.length = header.len.toNat) :
    AsFresh s.alloc header data ↔ Clean s.alloc header := by
  have hown := owns_of_reach hs
  refine ⟨fun h => ?_, asFresh_of_clean hown hdata⟩
  have henough : Enough .unlimited s.alloc header header.len := ⟨Or.inr rfl, Or.inr rfl⟩
  obtain ⟨⟨a', p⟩, hok⟩ := (newMessage_isOk_iff hown _ header data _).mpr henough
  obtain ⟨m, hm, hseen, _⟩ := h.obtained _ _ _ hok
  obtain ⟨_, m', hm', hbody, hheader⟩ := newMessage_ok hown hdata hok
  obtain rfl : m = m' := Option.some.inj (hm.symm.trans hm')
  exact clean_of_sameKind ((seen_of_header hdata hbody hheader).mp hseen)

/-- A frame of type 1, answered and given back. -/
def oneFrame : List Action :=
  [.allocate .unlimited ⟨2, 1, 0, 0, 0, 7⟩, .setBody .unlimited 0 [5, 6] 2, .dellocate 0]

/-- After it, a frame of type 1 still gets its own header back. -/
theorem recycled_as_fresh_iff_same : ∃ s : History, s.alloc.connMsgBuffer.items = [0] ∧
    (AsFresh s.alloc ⟨1, 1, 0, 0, 0, 7⟩ [9] ↔ Clean s.alloc ⟨1, 1, 0, 0, 0, 7⟩) :=
  ⟨_, rfl, recycled_as_fresh_iff _ (Reach.of_exec oneFrame rfl) _ _ rfl⟩

/-- After it, the next frame of type 2 is echoed with type 1. -/
theorem recycled_shows : ∃ s : History, Reach step always start s ∧
    ¬ AsFresh s.alloc ⟨1, 2, 0, 0, 0, 8⟩ [9] := by
  refine ⟨_, Reach.of_exec oneFrame rfl, ?_⟩
  intro h
  obtain ⟨m, hm, hseen, _⟩ := h.obtained .unlimited _ _ rfl
  cases hm
  exact absurd (congrArg Seen.type hseen) (by decide)

end AsioTcp.PoolReuse
