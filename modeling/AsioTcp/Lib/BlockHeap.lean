import Mathlib.Data.List.Perm.Basic
import Mathlib.Data.List.Range

/-!
# A heap of blocks

`new` hands out addresses in order and never one twice, `delete` is recorded.
`Ledger h live` is the account of the heap: `live` are the blocks that there
are, and of all that have been handed out each one either is among them or has
been deleted, once.
-/

universe u

/-- A heap with blocks of `β`. -/
structure BlockHeap (β : Type u) where
  block : Nat → Option (List β)
  /-- addresses from here on have not been handed out -/
  next : Nat
  /-- the addresses that `delete` has been called with, the last one first -/
  deleted : List Nat

namespace BlockHeap

variable {β : Type u}

def empty : BlockHeap β := ⟨fun _ => none, 0, []⟩

def set (h : BlockHeap β) (a : Nat) (b : Option (List β)) : BlockHeap β :=
  { h with block := fun i => if i = a then b else h.block i }

/-- The new block has the address `h.next`. -/
def new (h : BlockHeap β) (b : List β) : BlockHeap β :=
  { h.set h.next (some b) with next := h.next + 1 }

def delete (h : BlockHeap β) (a : Nat) : BlockHeap β :=
  { h.set a none with deleted := a :: h.deleted }

theorem set_self (h : BlockHeap β) (a : Nat) (b : Option (List β)) :
    (h.set a b).block a = b := if_pos rfl

theorem set_other (h : BlockHeap β) {a i : Nat} (hi : i ≠ a) (b : Option (List β)) :
    (h.set a b).block i = h.block i := if_neg hi

structure Ledger (h : BlockHeap β) (live : List Nat) : Prop where
  block : ∀ a, (h.block a).isSome ↔ a ∈ live
  once : (live ++ h.deleted).Perm (List.range h.next)

theorem ledger_empty : Ledger (empty : BlockHeap β) [] :=
  ⟨fun _ => iff_of_false Bool.false_ne_true List.not_mem_nil, List.Perm.nil⟩

namespace Ledger

variable {h : BlockHeap β} {live : List Nat}

theorem nodup (hl : Ledger h live) : (live ++ h.deleted).Nodup :=
  hl.once.nodup_iff.mpr List.nodup_range

/-- A new block. -/
theorem new (hl : Ledger h live) (b : List β) : Ledger (h.new b) (h.next :: live) := by
  constructor
  · intro a
    by_cases ha : a = h.next
    · rw [ha]
      exact iff_of_true (congrArg Option.isSome (h.set_self h.next (some b))) List.mem_cons_self
    · have hother : (h.new b).block a = h.block a := h.set_other ha (some b)
      rw [hother, hl.block, List.mem_cons]
      exact (or_iff_right ha).symm
  · show (h.next :: (live ++ h.deleted)).Perm (List.range (h.next + 1))
    rw [List.range_succ]
    exact (hl.once.cons h.next).trans (List.perm_append_singleton h.next _).symm

/-- A block is deleted. -/
theorem delete {a : Nat} (hl : Ledger h (a :: live)) : Ledger (h.delete a) live := by
  have ha : a ∉ live := by
    have hnodup := hl.nodup
    rw [List.cons_append, List.nodup_cons, List.mem_append] at hnodup
    exact fun hmem => hnodup.1 (Or.inl hmem)
  constructor
  · intro i
    by_cases hi : i = a
    · rw [hi]
      have hgone : (h.delete a).block a = none := h.set_self a none
      rw [hgone]
      exact iff_of_false Bool.false_ne_true ha
    · have hother : (h.delete a).block i = h.block i := h.set_other hi none
      rw [hother, hl.block, List.mem_cons]
      exact or_iff_right hi
  · show (live ++ a :: h.deleted).Perm (List.range h.next)
    exact List.perm_middle.trans hl.once

/-- A block that there is gets another content. -/
theorem set {a : Nat} (hl : Ledger h live) (ha : a ∈ live) (b : List β) :
    Ledger (h.set a (some b)) live := by
  refine ⟨fun i => ?_, hl.once⟩
  by_cases hi : i = a
  · rw [hi, h.set_self]
    exact iff_of_true rfl ha
  · rw [h.set_other hi, hl.block]

end Ledger

end BlockHeap
