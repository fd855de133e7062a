import AsioTcp.ConnMsg
import AsioTcp.Lib.BlockHeap
import AsioTcp.Lib.Transition

/-!
# A `conn_msg` and its block of the heap

`ConnMsg` takes a message together with the bytes that it points to. Here
`buff_` is an address and the heap is on its own, so that it can be told which
blocks `body_length`, `set_body` and the destructor allocate and delete, and
what they leave when `new char[]` throws. `view` leads back to `ConnMsg`, and
the functions of both correspond.
-/

namespace AsioTcp.MessageMemory

open Transition

/-- A `char*` in a message. -/
inductive Pointer
  | null
  /-- `buff_fix` -/
  | fixed
  | block (addr : Nat)
  deriving DecidableEq, Repr

/-- A `conn_msg`, and the heap. -/
structure State where
  buffFix : List BYTE
  buff : Pointer
  sizeAllocated : SizeT
  header : HDR
  heap : BlockHeap BYTE
  /-- `delete[]` was called with `buff_fix` -/
  inlineDeleted : Bool

/-- What `set_body` copies from. -/
structure Source where
  bytes : List BYTE
  fits : bytes.length < UInt32.size

def Source.size (src : Source) : SizeT := UInt32.ofNat src.bytes.length

namespace State

/-- `conn_msg::conn_msg`. -/
def construct (header : HDR) : State where
  buffFix := List.replicate maxBodyLength.toNat 0
  buff := .null
  sizeAllocated := 0
  header := header
  heap := .empty
  inlineDeleted := false

/-- `body_length()`. -/
def bodyLength (s : State) : SizeT := s.header.len

def capacity (s : State) : SizeT :=
  if s.sizeAllocated > 0 then s.sizeAllocated else maxBodyLength

/-- The memory that a pointer points to. -/
def memory (s : State) : Pointer → List BYTE
  | .null => []
  | .fixed => s.buffFix
  | .block a => (s.heap.block a).getD []

/-- The `body_length()` bytes that `body()` points to. -/
def body (s : State) : List BYTE := (s.memory s.buff).take s.bodyLength.toNat

def store (s : State) (bytes : List BYTE) : Pointer → State
  | .null => s
  | .fixed => { s with buffFix := bytes }
  | .block a => { s with heap := s.heap.set a (some bytes) }

/-- `memcpy(p, src, n)`. -/
def memcpy (s : State) (p : Pointer) (src : List BYTE) (n : Nat) : State :=
  s.store (ConnMsg.overwrite (s.memory p) src n) p

/-- `memset(p, 0, n)`. -/
def memset (s : State) (p : Pointer) (n : Nat) : State := s.memcpy p (List.replicate n 0) n

/-- `delete[] p`. -/
def deleteArray (s : State) : Pointer → State
  | .null => s
  | .fixed => { s with inlineDeleted := true }
  | .block a => { s with heap := s.heap.delete a }

/-- `header_.len = nSize`. -/
def setLen (s : State) (nSize : SizeT) : State := { s with header := s.header.setLen nSize }

/-- `buff_ = new char[n]; size_allocated_ = n`, when that succeeds. The bytes
are left indeterminate there, and cleared at once. -/
def newBlock (s : State) (n : SizeT) : State :=
  { s with heap := s.heap.new (List.replicate n.toNat 0)
           buff := .block s.heap.next
           sizeAllocated := n }

/-- First half of `body_length(size_t)`. -/
def releaseSmall (s : State) (nSize : SizeT) : State :=
  if s.sizeAllocated ≠ 0 ∧ ¬ nSize ≤ s.sizeAllocated then
    { s.deleteArray s.buff with buff := .null, sizeAllocated := 0 }
  else s

/-- Second half, when no block is left. -/
def placeBody (s : State) (nSize : SizeT) (newChar : Bool) : State × Bool :=
  let s := s.setLen nSize
  if s.bodyLength > maxBodyLength then
    if newChar then
      let s := s.newBlock s.bodyLength
      (s.memset s.buff s.bodyLength.toNat, false)
    else (s, true)
  else
    let s := { s with buff := .fixed }
    (s.memset s.buff s.bodyLength.toNat, false)

/-- `body_length(size_t)`. `newChar` says whether `new char[]` succeeds; the
flag, that it was called and threw. -/
def setBodyLength (s : State) (nSize : SizeT) (newChar : Bool) : State × Bool :=
  let s := s.releaseSmall nSize
  if s.sizeAllocated ≠ 0 then (s.setLen nSize, false)
  else s.placeBody nSize newChar

/-- `set_body(const streambuf&)`. -/
def setBodyStream (s : State) (buf : Source) (newChar : Bool) : State × Bool :=
  match s.setBodyLength buf.size newChar with
  | (s, true) => (s, true)
  | (s, false) => (s.memcpy s.buff buf.bytes s.bodyLength.toNat, false)

/-- `set_body(void*, size_t)`. -/
def setBodyPointer (s : State) (pData : Source) (newChar : Bool) : State × Bool :=
  match s.setBodyLength pData.size newChar with
  | (s, true) => (s, true)
  | (s, false) => (s.memcpy s.buff pData.bytes pData.size.toNat, false)

/-- `conn_msg::~conn_msg`. -/
def destroy (s : State) : State :=
  if s.buff ≠ .fixed then { s.deleteArray s.buff with buff := .null } else s

end State

inductive Call
  | bodyLength (nSize : SizeT) (newChar : Bool)
  | setBodyStream (buf : Source) (newChar : Bool)
  | setBodyPointer (pData : Source) (newChar : Bool)

/-- The call, and whether it throws. -/
def run (s : State) : Call → State × Bool
  | .bodyLength nSize newChar => s.setBodyLength nSize newChar
  | .setBodyStream buf newChar => s.setBodyStream buf newChar
  | .setBodyPointer pData newChar => s.setBodyPointer pData newChar

/-- After an exception the message is there as it has been left. -/
def step (s : State) (c : Call) : Option State := some (run s c).1

namespace Call

/-- The size that is asked for. -/
def size : Call → SizeT
  | .bodyLength nSize _ => nSize
  | .setBodyStream src _ | .setBodyPointer src _ => src.size

def newChar : Call → Bool
  | .bodyLength _ newChar | .setBodyStream _ newChar | .setBodyPointer _ newChar => newChar

/-- What `set_body` is to copy. -/
def source : Call → Option Source
  | .bodyLength _ _ => none
  | .setBodyStream src _ | .setBodyPointer src _ => some src

end Call

/-! ## The message as one value -/

def Pointer.view (s : State) : Pointer → Buff
  | .null => .null
  | .fixed => .fixed
  | .block a => .block a ((s.heap.block a).getD [])

def view (s : State) : ConnMsg := ⟨s.buffFix, s.buff.view s, s.sizeAllocated, s.header⟩

theorem content_view (s : State) : (view s).content = s.memory s.buff := by
  unfold view ConnMsg.content
  cases s.buff <;> rfl

theorem body_view (s : State) : (view s).body = s.body := by
  rw [ConnMsg.body, content_view]
  rfl

theorem view_setLen (s : State) (n : SizeT) : view (s.setLen n) = (view s).setLen n := by
  unfold view State.setLen
  cases s.buff <;> rfl

theorem view_memcpy (s : State) (src : List BYTE) (n : Nat) :
    view (s.memcpy s.buff src n) = (view s).memcpy src n := by
  unfold State.memcpy ConnMsg.memcpy view
  cases hb : s.buff with
  | null | fixed => simp [State.store, State.memory, Pointer.view, hb]
  | block a => simp [State.store, State.memory, Pointer.view, hb, BlockHeap.set]

theorem view_releaseSmall (s : State) (n : SizeT) :
    view (s.releaseSmall n) = (view s).releaseSmall n := by
  unfold State.releaseSmall ConnMsg.releaseSmall
  by_cases h : s.sizeAllocated ≠ 0 ∧ ¬ n ≤ s.sizeAllocated
  · have h' : (view s).sizeAllocated ≠ 0 ∧ ¬ n ≤ (view s).sizeAllocated := h
    rw [if_pos h, if_pos h']
    unfold view State.deleteArray
    cases s.buff <;> rfl
  · have h' : ¬ ((view s).sizeAllocated ≠ 0 ∧ ¬ n ≤ (view s).sizeAllocated) := h
    rw [if_neg h, if_neg h']

theorem next_releaseSmall (s : State) (n : SizeT) : (s.releaseSmall n).heap.next = s.heap.next := by
  unfold State.releaseSmall State.deleteArray
  split
  · cases s.buff <;> rfl
  · rfl

/-- The block that `new char[]` would return. -/
def newBlock (s : State) (newChar : Bool) : Option Nat := if newChar then some s.heap.next else none

/-- `body_length(size_t)` is that of `ConnMsg`. -/
theorem view_setBodyLength (s : State) (n : SizeT) (newChar : Bool) :
    (view s).setBodyLength n (newBlock s newChar) =
      (view (s.setBodyLength n newChar).1, (s.setBodyLength n newChar).2) := by
  have hnext := next_releaseSmall s n
  unfold ConnMsg.setBodyLength State.setBodyLength
  rw [← view_releaseSmall]
  generalize s.releaseSmall n = r at hnext
  by_cases h : r.sizeAllocated ≠ 0
  · have h' : (view r).sizeAllocated ≠ 0 := h
    simp only [if_pos h, if_pos h', view_setLen]
  · have h' : ¬ (view r).sizeAllocated ≠ 0 := h
    simp only [if_neg h, if_neg h', State.placeBody]
    by_cases hbig : n > maxBodyLength
    · have hbig' : (r.setLen n).bodyLength > maxBodyLength := hbig
      rw [if_pos hbig, if_pos hbig']
      cases newChar with
      | false => simp only [newBlock, Bool.false_eq_true, if_false, ← view_setLen]
      | true =>
        simp only [newBlock, if_true, State.newBlock, State.memset, State.memcpy, State.store,
          State.memory, view, Pointer.view, BlockHeap.new, BlockHeap.set, State.setLen,
          ConnMsg.setLen, State.bodyLength, HDR.setLen, ← hnext]
        simp [ConnMsg.overwrite]
    · have hbig' : ¬ (r.setLen n).bodyLength > maxBodyLength := hbig
      rw [if_neg hbig, if_neg hbig']
      simp [State.memset, State.memcpy, State.store, State.memory, view, Pointer.view,
        State.setLen, ConnMsg.setLen, State.bodyLength, HDR.setLen, ConnMsg.overwrite]

theorem bodyLength_setBodyLength (s : State) (n : SizeT) (newChar : Bool) :
    (s.setBodyLength n newChar).1.bodyLength = n := by
  have hheader := ConnMsg.setBodyLength_header (view s) n (newBlock s newChar)
  rw [view_setBodyLength] at hheader
  exact congrArg HDR.len hheader

/-- All three begin with `body_length(size_t)`, which alone can throw. -/
theorem run_eq (s : State) (c : Call) :
    run s c =
      match s.setBodyLength c.size c.newChar with
      | (t, true) => (t, true)
      | (t, false) =>
        (c.source.elim t fun src => t.memcpy t.buff src.bytes src.size.toNat, false) := by
  have hlen := bodyLength_setBodyLength s c.size c.newChar
  cases hr : s.setBodyLength c.size c.newChar with
  | mk t threw =>
    rw [hr] at hlen
    cases c with
    | bodyLength n newChar => cases threw <;> exact hr
    | setBodyStream src newChar =>
      have hr : s.setBodyLength src.size newChar = (t, threw) := hr
      have hlen : t.bodyLength = src.size := hlen
      cases threw <;> simp only [run, State.setBodyStream, hr, hlen]
      rfl
    | setBodyPointer src newChar =>
      have hr : s.setBodyLength src.size newChar = (t, threw) := hr
      cases threw <;> simp only [run, State.setBodyPointer, hr]
      rfl

/-- Both overloads of `set_body` are that of `ConnMsg`. -/
theorem view_setBody (s : State) {c : Call} {src : Source} (hc : c.source = some src) :
    (view s).setBody src.bytes src.size (newBlock s c.newChar) =
      (view (run s c).1, (run s c).2) := by
  have hsize : c.size = src.size := by
    cases c with
    | bodyLength => cases hc
    | setBodyStream | setBodyPointer => exact congrArg Source.size (Option.some.inj hc)
  rw [run_eq, hc, hsize, ConnMsg.setBody, view_setBodyLength]
  cases hr : s.setBodyLength src.size c.newChar with
  | mk t threw =>
    cases threw with
    | true => rfl
    | false => simp only [Option.elim_some, view_memcpy]

/-! ## The account of the heap -/

/-- The block that the message has. -/
def Pointer.blocks : Pointer → List Nat
  | .null | .fixed => []
  | .block a => [a]

/-- The block of the message is the only one, and `buff_fix` was never deleted. -/
structure Accounted (s : State) : Prop where
  ledger : s.heap.Ledger s.buff.blocks
  inline : s.inlineDeleted = false

structure Sound (s : State) : Prop extends Accounted s where
  wellFormed : (view s).WellFormed

theorem sound_construct (header : HDR) : Sound (.construct header) :=
  ⟨⟨BlockHeap.ledger_empty, rfl⟩, ConnMsg.ofHeader_wellFormed header⟩

theorem buff_memcpy (s : State) (p : Pointer) (src : List BYTE) (n : Nat) :
    (s.memcpy p src n).buff = s.buff := by
  cases p <;> rfl

theorem accounted_memcpy {s : State} (h : Accounted s) (src : List BYTE) (n : Nat) :
    Accounted (s.memcpy s.buff src n) := by
  have hledger := h.ledger
  have hbuff := buff_memcpy s s.buff src n
  cases hb : s.buff with
  | null | fixed =>
    rw [hb] at hledger hbuff
    exact ⟨by rw [hbuff]; exact hledger, h.inline⟩
  | block a =>
    rw [hb] at hledger hbuff
    exact ⟨by rw [hbuff]; exact hledger.set List.mem_cons_self _, h.inline⟩

/-- `delete[] buff_`, when `buff_` is not the inline array. -/
theorem accounted_delete {s : State} (h : Accounted s) (hb : s.buff ≠ .fixed) :
    (s.deleteArray s.buff).heap.Ledger [] ∧ (s.deleteArray s.buff).inlineDeleted = false := by
  have hledger := h.ledger
  cases hbuff : s.buff with
  | null =>
    rw [hbuff] at hledger
    exact ⟨hledger, h.inline⟩
  | fixed => exact absurd hbuff hb
  | block a =>
    rw [hbuff] at hledger
    exact ⟨hledger.delete, h.inline⟩

/-- Without a block `buff_` is null or the inline array. -/
theorem Sound.no_block {s : State} (h : Sound s) (h0 : s.sizeAllocated = 0) :
    s.buff.blocks = [] := by
  rcases h.wellFormed.rep with ⟨_, hb⟩ | ⟨hgt, _⟩
  · have hbuff : s.buff.view s = .null ∨ s.buff.view s = .fixed := hb
    cases hp : s.buff with
    | null | fixed => rfl
    | block a =>
      rw [hp] at hbuff
      rcases hbuff with hbuff | hbuff <;> cases hbuff
  · have hgt : s.sizeAllocated > maxBodyLength := hgt
    rw [h0] at hgt
    exact absurd hgt (by decide)

/-- With a block `buff_` points to it. -/
theorem Sound.has_block {s : State} (h : Sound s) (h0 : s.sizeAllocated ≠ 0) :
    ∃ a bytes, s.buff = .block a ∧ s.heap.block a = some bytes ∧
      bytes.length = s.sizeAllocated.toNat ∧ maxBodyLength < s.sizeAllocated := by
  rcases h.wellFormed.rep with ⟨hzero, _⟩ | ⟨hgt, a, bytes, hb, hlen⟩
  · exact absurd hzero h0
  · have hbuff : s.buff.view s = .block a bytes := hb
    have hledger := h.ledger
    cases hp : s.buff with
    | null | fixed =>
      rw [hp] at hbuff
      cases hbuff
    | block a' =>
      rw [hp] at hbuff hledger
      obtain ⟨rfl, hbytes⟩ : a' = a ∧ (s.heap.block a').getD [] = bytes := by
        simpa [Pointer.view] using hbuff
      obtain ⟨bytes', hlive⟩ := Option.isSome_iff_exists.mp
        ((hledger.block a').mpr List.mem_cons_self)
      rw [hlive] at hbytes
      obtain rfl : bytes' = bytes := hbytes
      exact ⟨a', bytes', rfl, hlive, hlen, hgt⟩

theorem accounted_releaseSmall {s : State} (h : Sound s) (n : SizeT) :
    Accounted (s.releaseSmall n) := by
  unfold State.releaseSmall
  split
  · rename_i hsmall
    obtain ⟨a, _, hb, _⟩ := h.has_block hsmall.1
    have hdeleted := accounted_delete h.toAccounted (by rw [hb]; nofun)
    exact ⟨hdeleted.1, hdeleted.2⟩
  · exact h.toAccounted

theorem accounted_placeBody {s : State} (h : Accounted s) (hb : s.buff.blocks = []) (n : SizeT)
    (newChar : Bool) : Accounted (s.placeBody n newChar).1 := by
  have hledger := h.ledger
  rw [hb] at hledger
  unfold State.placeBody
  simp only
  split
  · cases newChar with
    | false => exact ⟨h.ledger, h.inline⟩
    | true =>
      have hnew : Accounted ((s.setLen n).newBlock (s.setLen n).bodyLength) :=
        ⟨hledger.new _, h.inline⟩
      exact accounted_memcpy hnew _ _
  · have hfixed : Accounted { s.setLen n with buff := .fixed } := ⟨hledger, h.inline⟩
    exact accounted_memcpy hfixed _ _

theorem sound_setBodyLength {s : State} (h : Sound s) (n : SizeT) (newChar : Bool) :
    Sound (s.setBodyLength n newChar).1 := by
  constructor
  · have hrelease := accounted_releaseSmall h n
    have hwf : (view (s.releaseSmall n)).WellFormed := by
      rw [view_releaseSmall]
      exact ConnMsg.releaseSmall_wellFormed h.wellFormed n
    unfold State.setBodyLength
    simp only
    split
    · exact ⟨hrelease.ledger, hrelease.inline⟩
    · rename_i h0
      have hnone := Sound.no_block ⟨hrelease, hwf⟩ (Decidable.not_not.mp h0)
      exact accounted_placeBody hrelease hnone n newChar
  · have hwf := ConnMsg.setBodyLength_wellFormed h.wellFormed n (newBlock s newChar)
    rw [view_setBodyLength] at hwf
    exact hwf

theorem sound_run {s : State} (h : Sound s) (c : Call) : Sound (run s c).1 := by
  have hlength := sound_setBodyLength h c.size c.newChar
  constructor
  · have hset := hlength.toAccounted
    rw [run_eq]
    split <;> rename_i t hr <;> rw [hr] at hset
    · exact hset
    · cases c.source with
      | none => exact hset
      | some src => exact accounted_memcpy hset src.bytes src.size.toNat
  · cases hc : c.source with
    | none =>
      cases c with
      | bodyLength => exact hlength.wellFormed
      | setBodyStream | setBodyPointer => cases hc
    | some src =>
      have hwf := ConnMsg.setBody_wellFormed h.wellFormed src.bytes src.size
        (newBlock s c.newChar)
      rw [view_setBody s hc] at hwf
      exact hwf

theorem sound_of_reach {ok : State → Call → Prop} {header : HDR} {s : State}
    (h : Reach step ok (.construct header) s) : Sound s := by
  apply h.invariant (sound_construct header)
  intro s c t _ hs _ hstep
  rw [← Option.some.inj hstep]
  exact sound_run hs c

/-! ## Sequences of `set_body` -/

/-- A `set_body` that gets the memory it asks for. -/
def SetsBody (_ : State) (c : Call) : Prop := c.source.isSome = true ∧ c.newChar = true

instance (s : State) (c : Call) : Decidable (SetsBody s c) :=
  inferInstanceAs (Decidable (_ ∧ _))

/-- What `set_body` for `src` makes of the message `s`, constructed with `header`. -/
structure Represents (header : HDR) (src : Source) (s t : State) : Prop where
  length : t.bodyLength = src.size
  body : t.body = src.bytes
  capacity : t.bodyLength ≤ t.capacity
  /-- `buff_` is the inline array, or the only block that there is -/
  rep : (t.sizeAllocated = 0 ∧ t.buff = .fixed ∧ t.bodyLength ≤ maxBodyLength ∧
      ∀ a, t.heap.block a = none) ∨
    ∃ a bytes, t.buff = .block a ∧ t.heap.block a = some bytes ∧
      bytes.length = t.sizeAllocated.toNat ∧ maxBodyLength < t.sizeAllocated ∧
      ∀ b, (t.heap.block b).isSome → b = a
  grows : s.sizeAllocated ≤ t.sizeAllocated
  header : t.header = header.setLen src.size

/-- After the destructor, each block that was ever allocated has been deleted
once, and the inline array never. -/
structure Destroyed (s : State) : Prop where
  blocks : ∀ a, s.heap.block a = none
  once : s.heap.deleted.Perm (List.range s.heap.next)
  inline : s.inlineDeleted = false

theorem Source.toNat_size (src : Source) : src.size.toNat = src.bytes.length :=
  UInt32.toNat_ofNat_of_lt src.fits

theorem Sound.no_blocks {s : State} (h : Sound s) (h0 : s.sizeAllocated = 0) (a : Nat) :
    s.heap.block a = none := by
  have hledger := h.ledger
  rw [h.no_block h0] at hledger
  rw [← Option.not_isSome_iff_eq_none, hledger.block]
  exact List.not_mem_nil

theorem destroyed {s : State} (h : Sound s) : Destroyed s.destroy := by
  have hledger : s.destroy.heap.Ledger [] ∧ s.destroy.inlineDeleted = false := by
    unfold State.destroy
    split
    · rename_i hb
      exact accounted_delete h.toAccounted hb
    · rename_i hb
      have hb : s.buff = .fixed := Decidable.not_not.mp hb
      have hledger := h.ledger
      rw [hb] at hledger
      exact ⟨hledger, h.inline⟩
  obtain ⟨hledger, hinline⟩ := hledger
  refine ⟨fun a => ?_, hledger.once, hinline⟩
  rw [← Option.not_isSome_iff_eq_none, hledger.block]
  exact List.not_mem_nil

/-- The body that has been set is behind `buff_`. -/
theorem body_le_memory {s : State} {src : Source} (hlength : s.bodyLength = src.size)
    (hbody : s.body = src.bytes) : s.bodyLength.toNat ≤ (s.memory s.buff).length := by
  have htake := congrArg List.length hbody
  rw [State.body, List.length_take, ← src.toNat_size, ← hlength] at htake
  omega

theorem represents_run {s : State} (h : Sound s) {header : HDR} {n : SizeT}
    (hheader : s.header = header.setLen n) {c : Call} {src : Source} (hc : c.source = some src)
    (hnew : c.newChar = true) : Represents header src s (run s c).1 := by
  have hview := view_setBody s hc
  have hblock : newBlock s c.newChar = some s.heap.next := by rw [hnew]; rfl
  have hok := ConnMsg.setBody_some (view s) src.bytes src.size s.heap.next
  rw [← hblock] at hok
  have hbody := ConnMsg.setBody_body h.wellFormed src.toNat_size.symm hok
  have hlen := ConnMsg.setBody_header (view s) src.bytes src.size (newBlock s c.newChar)
  have hgrows := ConnMsg.setBody_grows h.wellFormed hok
  have hnull := ConnMsg.setBody_not_null h.wellFormed hok
  have hsound := sound_run h c
  rw [hview] at hbody hlen hgrows hnull
  generalize (run s c).1 = t at hbody hlen hgrows hnull hsound ⊢
  have hbody : t.body = src.bytes := (body_view t).symm.trans hbody
  have hlen : t.header = s.header.setLen src.size := hlen
  have hlength : t.bodyLength = src.size := congrArg HDR.len hlen
  have hroom := body_le_memory hlength hbody
  have hrep : (t.sizeAllocated = 0 ∧ t.buff = .fixed ∧ t.bodyLength ≤ maxBodyLength ∧
      ∀ a, t.heap.block a = none) ∨
      ∃ a bytes, t.buff = .block a ∧ t.heap.block a = some bytes ∧
        bytes.length = t.sizeAllocated.toNat ∧ maxBodyLength < t.sizeAllocated ∧
        ∀ b, (t.heap.block b).isSome → b = a := by
    by_cases h0 : t.sizeAllocated = 0
    · left
      have hfixed : t.buff = .fixed := by
        have hnone := hsound.no_block h0
        cases hb : t.buff with
        | null => exact absurd (show t.buff.view t = .null by rw [hb]; rfl) hnull
        | fixed => rfl
        | block a =>
          rw [hb] at hnone
          cases hnone
      refine ⟨h0, hfixed, ?_, hsound.no_blocks h0⟩
      rw [hfixed] at hroom
      have hinline : t.buffFix.length = maxBodyLength.toNat := hsound.wellFormed.inline
      exact UInt32.le_iff_toNat_le.mpr (Nat.le_trans hroom hinline.le)
    · right
      obtain ⟨a, bytes, hb, hbytes, hsize, hbig⟩ := hsound.has_block h0
      refine ⟨a, bytes, hb, hbytes, hsize, hbig, fun b hlive => ?_⟩
      have hledger := hsound.ledger
      rw [hb] at hledger
      exact List.mem_singleton.mp ((hledger.block b).mp hlive)
  refine ⟨hlength, hbody, ?_, hrep, hgrows, ?_⟩
  · unfold State.capacity
    rcases hrep with ⟨h0, _, hle, _⟩ | ⟨a, bytes, hb, hbytes, hsize, hbig, _⟩
    · rw [h0, if_neg (by decide)]
      exact hle
    · have hpos : t.sizeAllocated > 0 := UInt32.lt_trans (by decide) hbig
      rw [if_pos hpos, UInt32.le_iff_toNat_le, ← hsize]
      simpa [hb, State.memory, hbytes] using hroom
  · rw [hlen, hheader]
    rfl

/-- **Every sequence of `set_body`**: after each call the message is what that
call makes it, whatever came before, and the destructor may come at any time. -/
theorem set_body_sequence (header : HDR) (s : State)
    (h : Reach step SetsBody (.construct header) s) :
    (∀ c src t, c.source = some src → SetsBody s c → step s c = some t →
      Represents header src s t) ∧ Destroyed s.destroy := by
  have hheader : ∃ n, s.header = header.setLen n := by
    apply h.invariant ⟨header.len, rfl⟩
    intro s c t hs hheader hok hstep
    obtain ⟨n, hn⟩ := hheader
    obtain ⟨src, hc⟩ := Option.isSome_iff_exists.mp hok.1
    rw [← Option.some.inj hstep]
    exact ⟨src.size, (represents_run (sound_of_reach hs) hn hc hok.2).header⟩
  obtain ⟨n, hn⟩ := hheader
  have hsound := sound_of_reach h
  refine ⟨fun c src t hc hok hstep => ?_, destroyed hsound⟩
  rw [← Option.some.inj hstep]
  exact represents_run hsound hn hc hok.2

/-- A body of `n` bytes. -/
def ones (n : Nat) (h : n < UInt32.size) : Source := ⟨List.replicate n 1, by simpa using h⟩

/-- A first block, a small body in it, a second block, and a small body again. -/
theorem set_body_sequence_two_blocks : ∃ s t : State,
    t.sizeAllocated = 400 ∧ s.destroy.heap.deleted = [1, 0] ∧
    Represents ⟨7, 1, 2, 0, 0, 3⟩ (ones 5 (by decide)) s t ∧ Destroyed s.destroy := by
  let acts : List Call := [.setBodyPointer (ones 300 (by decide)) true,
    .setBodyStream (ones 10 (by decide)) true, .setBodyPointer (ones 400 (by decide)) true]
  let c : Call := .setBodyStream (ones 5 (by decide)) true
  have hrun : (exec (guarded step SetsBody) (.construct ⟨7, 1, 2, 0, 0, 3⟩) acts).map (fun s =>
      ((run s c).1.sizeAllocated, s.destroy.heap.deleted)) = some (400, [1, 0]) := by
    decide +kernel
  obtain ⟨s, hs, hseen⟩ := Option.map_eq_some_iff.mp hrun
  obtain ⟨hsize, hdeleted⟩ := Prod.mk.inj hseen
  have hall := set_body_sequence ⟨7, 1, 2, 0, 0, 3⟩ s (Reach.of_exec_guarded acts hs)
  exact ⟨s, (run s c).1, hsize, hdeleted, hall.1 c _ _ rfl ⟨rfl, rfl⟩ rfl, hall.2⟩

/-! ## When `new char[]` throws -/

/-- The message `t` is what `s` was, and points to the bytes that it tells. -/
structure Consistent (s t : State) : Prop where
  covered : t.bodyLength.toNat ≤ (t.memory t.buff).length
  length : t.bodyLength = s.bodyLength
  body : t.body = s.body

/-- It is `body_length(size_t)` that throws. -/
theorem run_threw {s : State} {c : Call} (h : (run s c).2 = true) :
    run s c = s.setBodyLength c.size c.newChar := by
  rw [run_eq] at h ⊢
  split at h
  · rename_i hr
    rw [hr]
  · cases h

/-- **An exception leaves the wrong length**: whatever the message held,
`body_length()` is then what was asked for, more than the inline array has room
for, and there is no block. -/
theorem throw_inconsistent (header : HDR) (s : State)
    (h : Reach step always (.construct header) s) (c : Call) (hthrew : (run s c).2 = true) :
    ¬ Consistent s (run s c).1 := by
  intro hconsistent
  have hsound := sound_run (sound_of_reach h) c
  have hcovered := hconsistent.covered
  have hrun := run_threw hthrew
  rw [hrun] at hthrew hsound hcovered
  have hview := view_setBodyLength s c.size c.newChar
  have hviewThrew : ((view s).setBodyLength c.size (newBlock s c.newChar)).2 = true := by
    rw [hview]
    exact hthrew
  obtain ⟨hbig, h0⟩ := ConnMsg.setBodyLength_threw hviewThrew
  rw [hview] at h0
  rw [bodyLength_setBodyLength] at hcovered
  generalize (s.setBodyLength c.size c.newChar).1 = t at hsound hcovered h0
  have hinline : t.buffFix.length = maxBodyLength.toNat := hsound.wellFormed.inline
  have hroom : (t.memory t.buff).length ≤ maxBodyLength.toNat := by
    have hnone := hsound.no_block h0
    cases hb : t.buff with
    | null => exact Nat.zero_le _
    | fixed => exact hinline.le
    | block a =>
      rw [hb] at hnone
      cases hnone
  have hbig : maxBodyLength.toNat < c.size.toNat := UInt32.lt_iff_toNat_lt.mp hbig
  omega

/-- A message with a block of 300 bytes is asked for 400: the block is gone. -/
theorem throw_inconsistent_block : ∃ s c, (run s c).2 = true ∧ s.body = List.replicate 300 1 ∧
    (run s c).1.buff = .null ∧ ¬ Consistent s (run s c).1 := by
  let c : Call := .setBodyPointer (ones 400 (by decide)) false
  have hrun : (exec step (.construct ⟨0, 0, 0, 0, 0, 0⟩)
      [.setBodyPointer (ones 300 (by decide)) true]).map (fun s =>
        ((run s c).2, s.body, (run s c).1.buff)) = some (true, List.replicate 300 1, .null) := by
    decide +kernel
  obtain ⟨s, hs, hseen⟩ := Option.map_eq_some_iff.mp hrun
  simp only [Prod.mk.injEq] at hseen
  obtain ⟨hthrew, hbody, hbuff⟩ := hseen
  exact ⟨s, c, hthrew, hbody, hbuff, throw_inconsistent _ s (Reach.of_exec _ hs) c hthrew⟩

/-- A message of three bytes is asked for 300. -/
theorem length_without_body : ∃ s c, Reach step always (.construct ⟨0, 0, 0, 0, 0, 0⟩) s ∧
    (run s c).2 = true ∧ ¬ Consistent s (run s c).1 := by
  let c : Call := .bodyLength 300 false
  have hrun : (exec step (.construct ⟨0, 0, 0, 0, 0, 0⟩)
      [.setBodyPointer (ones 3 (by decide)) true]).map (fun s =>
        ((run s c).2, s.bodyLength, (run s c).1.bodyLength)) = some (true, 3, 300) := by
    decide +kernel
  obtain ⟨s, hs, hseen⟩ := Option.map_eq_some_iff.mp hrun
  simp only [Prod.mk.injEq] at hseen
  obtain ⟨hthrew, hbefore, hafter⟩ := hseen
  refine ⟨s, c, Reach.of_exec _ hs, hthrew, fun hconsistent => ?_⟩
  have hlength := hconsistent.length
  rw [hbefore, hafter] at hlength
  exact absurd hlength (by decide)

/-- It can still be destroyed, or given another body. -/
theorem usable_after_throw {header : HDR} {s : State}
    (h : Reach step always (.construct header) s) (c : Call) :
    Destroyed (run s c).1.destroy ∧ ∀ c' src, c'.source = some src → c'.newChar = true →
      (run (run s c).1 c').1.body = src.bytes := by
  have hsound := sound_run (sound_of_reach h) c
  refine ⟨destroyed hsound, fun c' src hc hnew => ?_⟩
  have hheader : (run s c).1.header = (run s c).1.header.setLen (run s c).1.header.len := rfl
  exact (represents_run hsound hheader hc hnew).body

end AsioTcp.MessageMemory
