import Mathlib.Init

/-!
# Circular buffers of fixed capacity

A buffer never holds more than its capacity: `pushBack` on a full buffer drops
the front element to make room. `popFront` and `front` are meant for a
buffer that is not empty.
-/

universe u

structure CircularBuffer (α : Type u) where
  capacity : Nat
  items : List α
  fits : items.length ≤ capacity

namespace CircularBuffer

variable {α : Type u}

def empty (capacity : Nat) : CircularBuffer α := ⟨capacity, [], Nat.zero_le _⟩

def isEmpty (b : CircularBuffer α) : Bool := b.items.isEmpty

def full (b : CircularBuffer α) : Bool := b.items.length == b.capacity

def front? (b : CircularBuffer α) : Option α := b.items.head?

def popFront (b : CircularBuffer α) : CircularBuffer α :=
  ⟨b.capacity, b.items.tail, by
    have hfits := b.fits
    simp only [List.length_tail]
    omega⟩

def pushBack (b : CircularBuffer α) (a : α) : CircularBuffer α :=
  ⟨b.capacity, (b.items ++ [a]).drop (b.items.length + 1 - b.capacity), by
    simp only [List.length_drop, List.length_append, List.length_singleton]
    omega⟩

/-- A push that finds room keeps every element. -/
theorem pushBack_items {b : CircularBuffer α} (h : b.full = false) (a : α) :
    (b.pushBack a).items = b.items ++ [a] := by
  have hne : b.items.length ≠ b.capacity := by simpa [full] using h
  have hfits := b.fits
  have hroom : b.items.length + 1 - b.capacity = 0 := by omega
  simp [pushBack, hroom]

end CircularBuffer
