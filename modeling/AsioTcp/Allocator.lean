import AsioTcp.ConnMsg
import AsioTcp.Lib.CircularBuffer
import Mathlib.Data.Multiset.AddSub
import Mathlib.Data.Multiset.UnionInter

/-!
# The message allocator of `connection_mgr`

`allocate_msg_buffer` and `dellocate_msg_buffer` recycle messages through
`conn_msg_buffer_`. Each of them looks at the buffer under a read lock,
releases it, and looks again under a write lock before it touches the buffer;
the two locked sections are separate functions here, and the whole call is one
after the other.

`Owns a held` is the invariant of the allocator against its users: `held` are
the messages outside the buffer that somebody is still to give back. Every
section keeps it, whatever the others did in between, because it is stated of
the buffer as the section finds it.
-/

namespace AsioTcp

/-- The address of a `conn_msg`. -/
abbrev MsgPtr := Nat

/-- Which allocations succeed. -/
structure Memory where
  /-- `streambuf::prepare(n)` -/
  prepare : SizeT → Bool
  /-- `new conn_msg` -/
  newMsg : Bool
  /-- `new char[n]` -/
  newChar : SizeT → Bool

def Memory.unlimited : Memory := ⟨fun _ => true, true, fun _ => true⟩

structure Allocator where
  /-- the messages that exist, by address -/
  objects : MsgPtr → Option Msg
  /-- addresses from here on have not been handed out by `new` -/
  fresh : Nat
  connMsgBuffer : CircularBuffer MsgPtr
  /-- `push_back` was executed on a full buffer, or `front` and `pop_front`
  on an empty one -/
  misused : Bool

/-- What the allocations on the way of a frame throw. -/
inductive Exn
  /-- `std::length_error` or `std::bad_alloc` from `streambuf::prepare` -/
  | prepare
  /-- `std::bad_alloc` from `new` -/
  | badAlloc
  deriving DecidableEq, Repr

/-- What a locked section of `allocate_msg_buffer` comes to. -/
inductive Allocated
  | got (p : MsgPtr)
  | retry
  | badAlloc
  deriving DecidableEq

namespace Allocator

/-- `conn_msg_buffer_.set_capacity(50)`. -/
def init : Allocator := ⟨fun _ => none, 0, .empty 50, false⟩

def setObject (a : Allocator) (p : MsgPtr) (m : Option Msg) : Allocator :=
  { a with objects := fun q => if q = p then m else a.objects q }

/-- `new conn_msg(header)`. -/
def new (mem : Memory) (a : Allocator) (header : HDR) : Allocator × Allocated :=
  if mem.newMsg then
    ({ a.setObject a.fresh (some (.ofHeader header)) with fresh := a.fresh + 1 }, .got a.fresh)
  else (a, .badAlloc)

/-- `delete msg`. -/
def delete (a : Allocator) (p : MsgPtr) : Allocator := a.setObject p none

/-- `front` and `pop_front`, given the front element. -/
def popFront (a : Allocator) : Allocator :=
  { a with connMsgBuffer := a.connMsgBuffer.popFront
           misused := a.misused || a.connMsgBuffer.isEmpty }

def pushBack (a : Allocator) (p : MsgPtr) : Allocator :=
  { a with connMsgBuffer := a.connMsgBuffer.pushBack p
           misused := a.misused || a.connMsgBuffer.full }

/-- `allocate_msg_buffer` up to the release of the read lock. -/
def allocateRead (mem : Memory) (a : Allocator) (header : HDR) : Allocator × Allocated :=
  if header.len ≤ maxBodyLength then
    if a.connMsgBuffer.isEmpty then a.new mem header else (a, .retry)
  else a.new mem header

/-- `allocate_msg_buffer` under the write lock. -/
def allocateWrite (mem : Memory) (a : Allocator) (header : HDR) : Allocator × Allocated :=
  match a.connMsgBuffer.front? with
  | none => a.new mem header
  | some p => (a.popFront, .got p)

def allocateMsgBuffer (mem : Memory) (a : Allocator) (header : HDR) : Allocator × Allocated :=
  match a.allocateRead mem header with
  | (a, .retry) => a.allocateWrite mem header
  | r => r

/-- `capacity()` of the message at `p`. -/
def capacity (a : Allocator) (p : MsgPtr) : SizeT :=
  match a.objects p with
  | some m => m.val.capacity
  | none => 0

/-- `dellocate_msg_buffer` up to the release of the read lock; the flag says
that it goes on to the write lock. -/
def dellocateRead (a : Allocator) (p : MsgPtr) : Allocator × Bool :=
  if a.capacity p = maxBodyLength then
    if a.connMsgBuffer.full then (a.delete p, false) else (a, true)
  else (a.delete p, false)

/-- `dellocate_msg_buffer` under the write lock. -/
def dellocateWrite (a : Allocator) (p : MsgPtr) : Allocator :=
  if a.connMsgBuffer.full then a.delete p else a.pushBack p

def dellocateMsgBuffer (a : Allocator) (p : MsgPtr) : Allocator :=
  match a.dellocateRead p with
  | (a, true) => a.dellocateWrite p
  | (a, false) => a

/-- `clear_buffer`. -/
def clearBuffer (a : Allocator) : Allocator :=
  { a with objects := fun q => if q ∈ a.connMsgBuffer.items then none else a.objects q
           connMsgBuffer := .empty a.connMsgBuffer.capacity }

/-- `set_body` on the message at `p`; the flag says that it threw. -/
def setBody (mem : Memory) (a : Allocator) (p : MsgPtr) (data : List BYTE) (n : SizeT) :
    Allocator × Bool :=
  match a.objects p with
  | none => (a, false)
  | some m =>
    let r := m.setBody data n (if mem.newChar n then some a.fresh else none)
    ({ a.setObject p (some r.1) with fresh := a.fresh + 1 }, r.2)

/-- `allocate_msg_buffer(header)` and `set_body` on the message it returns. -/
def newMessage (mem : Memory) (a : Allocator) (header : HDR) (data : List BYTE) (n : SizeT) :
    Except Exn (Allocator × MsgPtr) :=
  match a.allocateMsgBuffer mem header with
  | (a, .got msg) =>
    match a.setBody mem msg data n with
    | (a, false) => .ok (a, msg)
    | (_, true) => .error .badAlloc
  | _ => .error .badAlloc

/-- The message at an address. -/
def message (a : Allocator) (msg : MsgPtr) : Option ConnMsg := (a.objects msg).map Msg.val

/-! ## Ownership -/

/-- The messages outside the buffer that are still to be given back, and those
in the buffer, are different objects, and they exist. -/
structure Owns (a : Allocator) (held : Multiset MsgPtr) : Prop where
  nodup : (held + ↑a.connMsgBuffer.items).Nodup
  live : ∀ p ∈ held + ↑a.connMsgBuffer.items, (a.objects p).isSome
  fresh : ∀ p, (a.objects p).isSome → p < a.fresh
  inline : ∀ p ∈ a.connMsgBuffer.items, ∀ m, a.objects p = some m → m.val.sizeAllocated = 0
  proper : a.misused = false

/-- Every message that exists is in the buffer or held by somebody. -/
def NoLeak (a : Allocator) (held : Multiset MsgPtr) : Prop :=
  ∀ p, (a.objects p).isSome → p ∈ held + ↑a.connMsgBuffer.items

theorem owns_init : Owns init 0 where
  nodup := by simp [init, CircularBuffer.empty]
  live := by simp [init, CircularBuffer.empty]
  fresh := by simp [init]
  inline := by simp [init, CircularBuffer.empty]
  proper := rfl

theorem noLeak_init : NoLeak init 0 := by
  intro p hp
  simp [init] at hp

@[simp] theorem setObject_connMsgBuffer (a : Allocator) (p : MsgPtr) (m : Option Msg) :
    (a.setObject p m).connMsgBuffer = a.connMsgBuffer := rfl

theorem setObject_self (a : Allocator) (p : MsgPtr) (m : Option Msg) :
    (a.setObject p m).objects p = m := if_pos rfl

theorem setObject_other (a : Allocator) {p q : MsgPtr} (h : q ≠ p) (m : Option Msg) :
    (a.setObject p m).objects q = a.objects q := if_neg h

/-- Somebody may lose sight of messages. -/
theorem Owns.mono {a : Allocator} {held held' : Multiset MsgPtr} (h : Owns a held)
    (hle : held' ≤ held) : Owns a held' := by
  have hsub : held' + ↑a.connMsgBuffer.items ≤ held + ↑a.connMsgBuffer.items :=
    Multiset.add_le_add_right hle
  exact ⟨Multiset.nodup_of_le hsub h.nodup, fun p hp => h.live p (Multiset.mem_of_le hsub hp),
    h.fresh, h.inline, h.proper⟩

theorem Owns.not_pooled {a : Allocator} {held : Multiset MsgPtr} (h : Owns a held) {p : MsgPtr}
    (hp : p ∈ held) : p ∉ a.connMsgBuffer.items :=
  fun hq => Multiset.disjoint_left.mp (Multiset.nodup_add.mp h.nodup).2.2 hp hq

/-- A section takes the allocator from `a` to `a'` while its callers pass from
holding `held` to holding `held'`: ownership is kept, no message is lost, and
the messages held all along are left alone. -/
structure Passes (a : Allocator) (held : Multiset MsgPtr) (a' : Allocator)
    (held' : Multiset MsgPtr) : Prop where
  owns : Owns a' held'
  noLeak : NoLeak a held → NoLeak a' held'
  same : ∀ q ∈ held, q ∈ held' → a'.objects q = a.objects q

/-- A new message is held by the caller; otherwise nothing has happened. -/
def Handed (a : Allocator) (held : Multiset MsgPtr) : Allocator × Allocated → Prop
  | (a', .got p) => Passes a held a' (p ::ₘ held)
  | (a', .retry) => a' = a
  | (a', .badAlloc) => a' = a

theorem handed_new {a : Allocator} {held : Multiset MsgPtr} (h : Owns a held) (mem : Memory)
    (header : HDR) : Handed a held (a.new mem header) := by
  unfold new
  split
  · have hfresh : a.fresh ∉ held + ↑a.connMsgBuffer.items := by
      intro hmem
      exact absurd (h.fresh _ (h.live _ hmem)) (Nat.lt_irrefl _)
    have hother : ∀ q ∈ held + ↑a.connMsgBuffer.items, q ≠ a.fresh := by
      intro q hq he
      exact hfresh (he ▸ hq)
    refine ⟨⟨?_, ?_, ?_, ?_, h.proper⟩, ?_, ?_⟩
    · rw [Multiset.cons_add]
      exact Multiset.nodup_cons.mpr ⟨hfresh, h.nodup⟩
    · intro q hq
      rw [Multiset.cons_add] at hq
      rcases Multiset.mem_cons.mp hq with rfl | hq
      · exact (congrArg Option.isSome (setObject_self a _ _)).trans rfl
      · exact (congrArg Option.isSome (setObject_other a (hother q hq) _)).trans (h.live q hq)
    · intro q hq
      by_cases he : q = a.fresh
      · exact he ▸ Nat.lt_succ_self _
      · have hq' : (a.objects q).isSome :=
          (congrArg Option.isSome (setObject_other a he _)).symm.trans hq
        exact Nat.lt_succ_of_lt (h.fresh q hq')
    · intro q hq m hm
      have he := hother q (Multiset.mem_add.mpr (Or.inr hq))
      exact h.inline q hq m ((setObject_other a he _).symm.trans hm)
    · intro hleak q hq
      rw [Multiset.cons_add]
      by_cases he : q = a.fresh
      · exact Multiset.mem_cons.mpr (Or.inl he)
      · have hq' : (a.objects q).isSome :=
          (congrArg Option.isSome (setObject_other a he _)).symm.trans hq
        exact Multiset.mem_cons_of_mem (hleak q hq')
    · intro q hq _
      exact setObject_other a (hother q (Multiset.mem_add.mpr (Or.inl hq))) _
  · rfl

theorem handed_allocateRead {a : Allocator} {held : Multiset MsgPtr} (h : Owns a held)
    (mem : Memory) (header : HDR) : Handed a held (a.allocateRead mem header) := by
  unfold allocateRead
  split
  · split
    · exact handed_new h mem header
    · rfl
  · exact handed_new h mem header

theorem handed_allocateWrite {a : Allocator} {held : Multiset MsgPtr} (h : Owns a held)
    (mem : Memory) (header : HDR) : Handed a held (a.allocateWrite mem header) := by
  unfold allocateWrite CircularBuffer.front?
  cases hitems : a.connMsgBuffer.items with
  | nil => exact handed_new h mem header
  | cons p rest =>
    -- the front moves from the buffer to the caller
    have hmove : p ::ₘ held + ↑a.popFront.connMsgBuffer.items =
        held + ↑a.connMsgBuffer.items := by
      simp [popFront, CircularBuffer.popFront, hitems, ← Multiset.cons_coe]
    refine ⟨⟨?_, ?_, h.fresh, ?_, ?_⟩, ?_, fun _ _ _ => rfl⟩
    · rw [hmove]; exact h.nodup
    · rw [hmove]; exact h.live
    · intro q hq
      apply h.inline q
      rw [hitems]
      have hq' : q ∈ rest := by simpa [popFront, CircularBuffer.popFront, hitems] using hq
      exact List.mem_cons_of_mem p hq'
    · simp [popFront, h.proper, CircularBuffer.isEmpty, hitems]
    · intro hleak
      unfold NoLeak
      rw [hmove]
      exact hleak

theorem handed_allocateMsgBuffer {a : Allocator} {held : Multiset MsgPtr} (h : Owns a held)
    (mem : Memory) (header : HDR) : Handed a held (a.allocateMsgBuffer mem header) := by
  have hread := handed_allocateRead h mem header
  unfold allocateMsgBuffer
  split
  · rename_i a' hr
    rw [hr] at hread
    obtain rfl : a' = a := hread
    exact handed_allocateWrite h mem header
  · exact hread

/-- A held message is deleted. -/
theorem passes_delete {a : Allocator} {held : Multiset MsgPtr} {p : MsgPtr}
    (h : Owns a (p ::ₘ held)) : Passes a (p ::ₘ held) (a.delete p) held := by
  have hnodup := h.nodup
  rw [Multiset.cons_add] at hnodup
  obtain ⟨hp, hrest⟩ := Multiset.nodup_cons.mp hnodup
  have hother : ∀ q ∈ held + ↑a.connMsgBuffer.items, q ≠ p := fun q hq he => hp (he ▸ hq)
  refine ⟨⟨hrest, ?_, ?_, ?_, h.proper⟩, ?_, ?_⟩
  · intro q hq
    rw [Allocator.delete, setObject_other a (hother q hq)]
    apply h.live q
    rw [Multiset.cons_add]
    exact Multiset.mem_cons_of_mem hq
  · intro q hq
    by_cases he : q = p
    · rw [Allocator.delete, he, setObject_self] at hq
      cases hq
    · rw [Allocator.delete, setObject_other a he] at hq
      exact h.fresh q hq
  · intro q hq m hm
    have he := hother q (Multiset.mem_add.mpr (Or.inr hq))
    rw [Allocator.delete, setObject_other a he] at hm
    exact h.inline q hq m hm
  · intro hleak q hq
    by_cases he : q = p
    · rw [Allocator.delete, he, setObject_self] at hq
      cases hq
    · rw [Allocator.delete, setObject_other a he] at hq
      have hmem := hleak q hq
      rw [Multiset.cons_add] at hmem
      exact (Multiset.mem_cons.mp hmem).resolve_left he
  · intro q _ hq
    exact setObject_other a (hother q (Multiset.mem_add.mpr (Or.inl hq))) _

/-- A held message without a block goes into a buffer that has room. -/
theorem passes_pushBack {a : Allocator} {held : Multiset MsgPtr} {p : MsgPtr}
    (h : Owns a (p ::ₘ held)) (hroom : a.connMsgBuffer.full = false)
    (hinline : ∀ m, a.objects p = some m → m.val.sizeAllocated = 0) :
    Passes a (p ::ₘ held) (a.pushBack p) held := by
  have hitems : (a.pushBack p).connMsgBuffer.items = a.connMsgBuffer.items ++ [p] :=
    CircularBuffer.pushBack_items hroom p
  have hmove : held + ↑(a.pushBack p).connMsgBuffer.items =
      p ::ₘ held + ↑a.connMsgBuffer.items := by
    rw [hitems, ← Multiset.coe_add, ← Multiset.add_assoc, Multiset.add_comm (held + _),
      Multiset.cons_add]
    exact Multiset.singleton_add p _
  refine ⟨⟨?_, ?_, h.fresh, ?_, ?_⟩, ?_, fun _ _ _ => rfl⟩
  · rw [hmove]; exact h.nodup
  · rw [hmove]; exact h.live
  · intro q hq m hm
    rw [hitems] at hq
    rcases List.mem_append.mp hq with hq | hq
    · exact h.inline q hq m hm
    · obtain rfl := List.mem_singleton.mp hq
      exact hinline m hm
  · simp [Allocator.pushBack, h.proper, hroom]
  · intro hleak
    unfold NoLeak
    rw [hmove]
    exact hleak

theorem inline_of_capacity {a : Allocator} {p : MsgPtr} (h : a.capacity p = maxBodyLength)
    (m : Msg) (hm : a.objects p = some m) : m.val.sizeAllocated = 0 := by
  simp only [capacity, hm] at h
  exact m.wellFormed.capacity_eq_iff.mp h

/-- The message at `p` has been taken back, or the call goes on to the write
lock with a message that has no block. -/
def Taken (a : Allocator) (p : MsgPtr) (held : Multiset MsgPtr) : Allocator × Bool → Prop
  | (a', false) => Passes a (p ::ₘ held) a' held
  | (a', true) => a' = a ∧ ∀ m, a.objects p = some m → m.val.sizeAllocated = 0

theorem taken_dellocateRead {a : Allocator} {held : Multiset MsgPtr} {p : MsgPtr}
    (h : Owns a (p ::ₘ held)) : Taken a p held (a.dellocateRead p) := by
  unfold dellocateRead
  split
  · rename_i hcap
    split
    · exact passes_delete h
    · exact ⟨rfl, inline_of_capacity hcap⟩
  · exact passes_delete h

theorem passes_dellocateWrite {a : Allocator} {held : Multiset MsgPtr} {p : MsgPtr}
    (h : Owns a (p ::ₘ held))
    (hinline : ∀ m, a.objects p = some m → m.val.sizeAllocated = 0) :
    Passes a (p ::ₘ held) (a.dellocateWrite p) held := by
  unfold dellocateWrite
  split
  · exact passes_delete h
  · rename_i hroom
    exact passes_pushBack h (Bool.eq_false_of_not_eq_true hroom) hinline

theorem passes_dellocateMsgBuffer {a : Allocator} {held : Multiset MsgPtr} {p : MsgPtr}
    (h : Owns a (p ::ₘ held)) : Passes a (p ::ₘ held) (a.dellocateMsgBuffer p) held := by
  have hread := taken_dellocateRead h
  unfold dellocateMsgBuffer
  split <;> rename_i a' hr <;> rw [hr] at hread
  · obtain ⟨rfl, hinline⟩ := hread
    exact passes_dellocateWrite h hinline
  · exact hread

theorem passes_clearBuffer {a : Allocator} {held : Multiset MsgPtr} (h : Owns a held) :
    Passes a held a.clearBuffer held := by
  have hsame : ∀ q ∈ held, a.clearBuffer.objects q = a.objects q := by
    intro q hq
    exact if_neg (h.not_pooled hq)
  have hold : ∀ q, (a.clearBuffer.objects q).isSome →
      q ∉ a.connMsgBuffer.items ∧ (a.objects q).isSome := by
    intro q hq
    simp only [clearBuffer] at hq
    split at hq
    · cases hq
    · rename_i hp
      exact ⟨hp, hq⟩
  refine ⟨⟨?_, ?_, fun q hq => h.fresh q (hold q hq).2, ?_, h.proper⟩, ?_, fun q hq _ => hsame q hq⟩
  · simpa [clearBuffer, CircularBuffer.empty] using (Multiset.nodup_add.mp h.nodup).1
  · intro q hq
    have hq : q ∈ held := by simpa [clearBuffer, CircularBuffer.empty] using hq
    rw [hsame q hq]
    exact h.live q (Multiset.mem_add.mpr (Or.inl hq))
  · intro q hq
    cases hq
  · intro hleak q hq
    obtain ⟨hp, hlive⟩ := hold q hq
    have hmem := (Multiset.mem_add.mp (hleak q hlive)).resolve_right hp
    exact Multiset.mem_add.mpr (Or.inl hmem)

/-- `set_body` changes the message that it is called on and no other one. -/
theorem setBody_other {a : Allocator} {p q : MsgPtr} (h : q ≠ p) (mem : Memory)
    (data : List BYTE) (n : SizeT) : (a.setBody mem p data n).1.objects q = a.objects q := by
  unfold setBody
  split
  · rfl
  · exact setObject_other a h _

/-- A message that is held may become any other one. -/
theorem owns_setObject {a : Allocator} {held : Multiset MsgPtr} {p : MsgPtr} (h : Owns a held)
    (hp : p ∈ held) (m : Msg) : Owns (a.setObject p (some m)) held ∧
      (NoLeak a held → NoLeak (a.setObject p (some m)) held) := by
  have hsome : ∀ q, ((a.setObject p (some m)).objects q).isSome = (a.objects q).isSome := by
    intro q
    by_cases he : q = p
    · rw [he, setObject_self, h.live p (Multiset.mem_add.mpr (Or.inl hp))]
      rfl
    · rw [setObject_other a he]
  constructor
  · refine ⟨h.nodup, fun q hq => (hsome q).trans (h.live q hq), ?_, ?_, h.proper⟩
    · intro q hq
      exact h.fresh q ((hsome q).symm.trans hq)
    · intro q hq m' hm'
      have he : q ≠ p := fun he => h.not_pooled hp (he ▸ hq)
      exact h.inline q hq m' ((setObject_other a he _).symm.trans hm')
  · intro hleak q hq
    exact hleak q ((hsome q).symm.trans hq)

theorem owns_setBody {a : Allocator} {held : Multiset MsgPtr} {p : MsgPtr} (h : Owns a held)
    (hp : p ∈ held) (mem : Memory) (data : List BYTE) (n : SizeT) :
    Owns (a.setBody mem p data n).1 held ∧
      (NoLeak a held → NoLeak (a.setBody mem p data n).1 held) := by
  unfold setBody
  cases hm : a.objects p with
  | none => exact ⟨h, fun hleak => hleak⟩
  | some m =>
    obtain ⟨hown, hleak⟩ :=
      owns_setObject h hp (m.setBody data n (if mem.newChar n then some a.fresh else none)).1
    refine ⟨⟨hown.nodup, hown.live, ?_, hown.inline, hown.proper⟩, hleak⟩
    intro q hq
    exact Nat.lt_succ_of_lt (hown.fresh q hq)

/-! ## What a call hands out -/

/-- The message that `allocate_msg_buffer` takes from the buffer, if any. -/
def recycled (a : Allocator) (header : HDR) : Option MsgPtr :=
  if header.len ≤ maxBodyLength then a.connMsgBuffer.front? else none

theorem allocateMsgBuffer_recycled {a : Allocator} {header : HDR} {p : MsgPtr}
    (h : a.recycled header = some p) (mem : Memory) :
    a.allocateMsgBuffer mem header = (a.popFront, .got p) := by
  unfold recycled at h
  split at h
  · rename_i hlen
    have hne : a.connMsgBuffer.isEmpty = false := by
      unfold CircularBuffer.front? at h
      unfold CircularBuffer.isEmpty
      cases hi : a.connMsgBuffer.items with
      | nil => rw [hi] at h; cases h
      | cons => rfl
    simp [allocateMsgBuffer, allocateRead, allocateWrite, hlen, hne, h]
  · cases h

theorem allocateMsgBuffer_new {a : Allocator} {header : HDR} (h : a.recycled header = none)
    (mem : Memory) : a.allocateMsgBuffer mem header = a.new mem header := by
  have hnew : ∀ a' : Allocator, a.new mem header ≠ (a', .retry) := by
    intro a' he
    unfold new at he
    split at he <;> cases he
  unfold allocateMsgBuffer allocateRead
  unfold recycled at h
  split at h
  · rename_i hlen
    have he : a.connMsgBuffer.isEmpty = true := by
      unfold CircularBuffer.front? at h
      simpa [CircularBuffer.isEmpty] using h
    rw [if_pos hlen, if_pos he]
    split
    · rename_i a' hr
      exact absurd hr (hnew a')
    · rfl
  · rename_i hlen
    rw [if_neg hlen]
    split
    · rename_i a' hr
      exact absurd hr (hnew a')
    · rfl

/-- A recycled message exists and has no block. -/
theorem Owns.recycled {a : Allocator} {held : Multiset MsgPtr} (h : Owns a held) {header : HDR}
    {p : MsgPtr} (hp : a.recycled header = some p) :
    ∃ m, a.objects p = some m ∧ m.val.sizeAllocated = 0 := by
  have hmem : p ∈ a.connMsgBuffer.items := by
    unfold Allocator.recycled CircularBuffer.front? at hp
    split at hp
    · exact List.mem_of_head? hp
    · cases hp
  obtain ⟨m, hm⟩ := Option.isSome_iff_exists.mp
    (h.live p (Multiset.mem_add.mpr (Or.inr hmem)))
  exact ⟨m, hm, h.inline p hmem m hm⟩

/-- The message that a call hands out, before `set_body`. -/
theorem handedOut {a a' : Allocator} {held : Multiset MsgPtr} (h : Owns a held) {mem : Memory}
    {header : HDR} {p : MsgPtr} (ha : a.allocateMsgBuffer mem header = (a', .got p)) :
    ∃ m, a'.objects p = some m ∧ m.val.sizeAllocated = 0 ∧
      ((a.recycled header = some p ∧ a.objects p = some m) ∨
        (a.recycled header = none ∧ m = .ofHeader header)) := by
  cases hr : a.recycled header with
  | some q =>
    rw [allocateMsgBuffer_recycled hr] at ha
    obtain ⟨rfl, rfl⟩ : a.popFront = a' ∧ q = p := by simpa using ha
    obtain ⟨m, hm, h0⟩ := h.recycled hr
    exact ⟨m, hm, h0, Or.inl ⟨rfl, hm⟩⟩
  | none =>
    rw [allocateMsgBuffer_new hr] at ha
    unfold new at ha
    split at ha
    · obtain ⟨rfl, rfl⟩ : _ = a' ∧ a.fresh = p := by simpa using ha
      exact ⟨.ofHeader header, setObject_self a _ _, rfl, Or.inr ⟨rfl, rfl⟩⟩
    · cases ha

/-- The header of the message that a call hands out. -/
def handedHeader (a : Allocator) (header : HDR) : HDR :=
  match (a.recycled header).bind a.message with
  | some m => m.header
  | none => header

/-- The allocations that `newMessage` needs. -/
def Enough (mem : Memory) (a : Allocator) (header : HDR) (n : SizeT) : Prop :=
  ((a.recycled header).isSome ∨ mem.newMsg = true) ∧ (n ≤ maxBodyLength ∨ mem.newChar n = true)

/-- **A new message.** It is held by the caller, carries the header that the
allocator handed out with the length set, and reads back the body it was given. -/
theorem newMessage_ok {a a' : Allocator} {held : Multiset MsgPtr} (h : Owns a held)
    {mem : Memory} {header : HDR} {data : List BYTE} {n : SizeT} {p : MsgPtr}
    (hdata : data.length = n.toNat) (hok : a.newMessage mem header data n = .ok (a', p)) :
    Owns a' (p ::ₘ held) ∧ ∃ m, a'.message p = some m ∧ m.body = data ∧
      m.header = (a.handedHeader header).setLen n := by
  unfold newMessage at hok
  split at hok
  · rename_i b q hal
    obtain ⟨m, hm, h0, horigin⟩ := handedOut h hal
    have hheader : m.val.header = a.handedHeader header := by
      rcases horigin with ⟨hr, hq⟩ | ⟨hr, rfl⟩
      · simp [handedHeader, message, hr, hq]
      · simp [handedHeader, hr, Msg.ofHeader, ConnMsg.ofHeader]
    have hown : Owns b (q ::ₘ held) := by
      have hhanded := handed_allocateMsgBuffer h mem header
      rw [hal] at hhanded
      exact hhanded.owns
    split at hok
    · rename_i c hset
      obtain ⟨rfl, rfl⟩ : c = a' ∧ q = p := by simpa using hok
      have hown' := (owns_setBody hown (Multiset.mem_cons_self q held) mem data n).1
      rw [hset] at hown'
      simp only [setBody, hm] at hset
      obtain ⟨hc, hthrew⟩ := Prod.mk.inj hset
      refine ⟨hown', _, ?_, ConnMsg.setBody_body m.wellFormed hdata hthrew, ?_⟩
      · rw [← hc, message, Option.map_eq_some_iff]
        exact ⟨_, setObject_self b q _, rfl⟩
      · rw [← hheader]
        exact ConnMsg.setBody_header m.val data n _
    · cases hok
  · cases hok

/-- The messages that others hold are left as they are. -/
theorem newMessage_objects {a a' : Allocator} {held : Multiset MsgPtr} (h : Owns a held)
    {mem : Memory} {header : HDR} {data : List BYTE} {n : SizeT} {p q : MsgPtr}
    (hok : a.newMessage mem header data n = .ok (a', p)) (hq : q ∈ held) :
    a'.objects q = a.objects q := by
  unfold newMessage at hok
  split at hok
  · rename_i b r hal
    have hhanded := handed_allocateMsgBuffer h mem header
    rw [hal] at hhanded
    have hnodup := hhanded.owns.nodup
    rw [Multiset.cons_add] at hnodup
    have hne : q ≠ r := by
      rintro rfl
      exact (Multiset.nodup_cons.mp hnodup).1 (Multiset.mem_add.mpr (Or.inl hq))
    split at hok
    · rename_i c hset
      cases hok
      have hbody := setBody_other (a := b) hne mem data n
      rw [hset] at hbody
      exact hbody.trans (hhanded.same q hq (Multiset.mem_cons_of_mem hq))
    · cases hok
  · cases hok

/-- `newMessage` throws exactly when an allocation that it needs fails. -/
theorem newMessage_isOk_iff {a : Allocator} {held : Multiset MsgPtr} (h : Owns a held)
    (mem : Memory) (header : HDR) (data : List BYTE) (n : SizeT) :
    (∃ r, a.newMessage mem header data n = .ok r) ↔ Enough mem a header n := by
  have hbody : ∀ b p m, a.allocateMsgBuffer mem header = (b, .got p) → b.objects p = some m →
      m.val.sizeAllocated = 0 → ((∃ r, a.newMessage mem header data n = .ok r) ↔
        (n ≤ maxBodyLength ∨ mem.newChar n = true)) := by
    intro b p m hal hm h0
    have hthrew := ConnMsg.setBody_threw_iff h0 data n (if mem.newChar n then some b.fresh else none)
    have hflag : (b.setBody mem p data n).2 =
        (m.val.setBody data n (if mem.newChar n then some b.fresh else none)).2 := by
      simp only [setBody, hm]
      rfl
    rw [← hflag] at hthrew
    unfold newMessage
    simp only [hal]
    split <;> rename_i c hr <;> rw [hr] at hthrew
    · have hle : n ≤ maxBodyLength ∨ mem.newChar n = true := by
        by_contra hno
        rw [not_or, Bool.not_eq_true] at hno
        exact Bool.false_ne_true (hthrew.mpr ⟨UInt32.not_le.mp hno.1, by rw [hno.2]; rfl⟩)
      exact iff_of_true ⟨_, rfl⟩ hle
    · obtain ⟨hbig, hnone⟩ := hthrew.mp rfl
      have hno : ¬ (n ≤ maxBodyLength ∨ mem.newChar n = true) := by
        rintro (hle | hmem)
        · exact UInt32.not_lt.mpr hle hbig
        · rw [if_pos hmem] at hnone
          cases hnone
      exact iff_of_false (by rintro ⟨r, hr⟩; cases hr) hno
  unfold Enough
  cases hr : a.recycled header with
  | some p =>
    obtain ⟨m, hm, h0⟩ := h.recycled hr
    rw [hbody a.popFront p m (allocateMsgBuffer_recycled hr mem) hm h0]
    simp
  | none =>
    have hal := allocateMsgBuffer_new hr mem
    cases hnew : mem.newMsg with
    | true =>
      rw [hbody _ a.fresh (.ofHeader header) (hal.trans (if_pos hnew))
        (setObject_self a a.fresh _) rfl]
      simp
    | false =>
      have hbad : a.allocateMsgBuffer mem header = (a, .badAlloc) := by
        rw [hal, new, if_neg (by simp [hnew])]
      simp [newMessage, hbad]

end Allocator

end AsioTcp
