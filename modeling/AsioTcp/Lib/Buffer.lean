import Mathlib.Init

/-!
# Buffers of a fixed size

`write` refuses what does not fit. `Holds b held` says that a buffer starts
with `held`; what follows is left from before.
-/

universe u

structure Buffer (α : Type u) (size : Nat) where
  items : List α
  length_items : items.length = size
  deriving DecidableEq, Repr

namespace Buffer

variable {α : Type u} {size : Nat}

def filled (a : α) : Buffer α size := ⟨List.replicate size a, List.length_replicate⟩

def read (b : Buffer α size) (start len : Nat) : List α := (b.items.drop start).take len

def write (b : Buffer α size) (start : Nat) (data : List α) : Option (Buffer α size) :=
  if h : start + data.length ≤ size then
    some ⟨b.items.take start ++ (data ++ b.items.drop (start + data.length)), by
      have hlen := b.length_items
      simp only [List.length_append, List.length_take, List.length_drop]
      omega⟩
  else none

def Holds (b : Buffer α size) (held : List α) : Prop := held <+: b.items

variable {b c : Buffer α size} {held : List α}

theorem holds_nil (b : Buffer α size) : b.Holds [] := List.nil_prefix

theorem Holds.length_le (h : b.Holds held) : held.length ≤ size :=
  b.length_items ▸ List.IsPrefix.length_le h

theorem Holds.read (h : b.Holds held) {start len : Nat} (hle : start + len ≤ held.length) :
    b.read start len = (held.drop start).take len := by
  obtain ⟨after, hafter⟩ := h
  rw [Buffer.read, ← hafter, List.drop_append_of_le_length (by omega),
    List.take_append_of_le_length (by rw [List.length_drop]; omega)]

theorem isSome_write (b : Buffer α size) {start : Nat} {data : List α}
    (h : start + data.length ≤ size) : ∃ c, b.write start data = some c := by
  rw [write, dif_pos h]
  exact ⟨_, rfl⟩

theorem items_write {start : Nat} {data : List α} (h : b.write start data = some c) :
    c.items = b.items.take start ++ (data ++ b.items.drop (start + data.length)) := by
  unfold write at h
  split at h
  · cases h
    rfl
  · cases h

/-- Data written behind what the buffer holds. -/
theorem Holds.write {data : List α} (h : b.Holds held)
    (hw : b.write held.length data = some c) : c.Holds (held ++ data) := by
  obtain ⟨after, hafter⟩ := h
  refine ⟨b.items.drop (held.length + data.length), ?_⟩
  have htake : b.items.take held.length = held := by rw [← hafter, List.take_left]
  rw [items_write hw, htake, List.append_assoc]

theorem holds_write_zero {data : List α} (hw : b.write 0 data = some c) : c.Holds data := by
  have hc := (holds_nil b).write hw
  rwa [List.nil_append] at hc

theorem Holds.length_write {data : List α} (h : b.Holds held)
    (hfit : held.length + data.length ≤ size) :
    ∃ c, b.write held.length data = some c ∧ c.Holds (held ++ data) := by
  obtain ⟨c, hc⟩ := b.isSome_write hfit
  exact ⟨c, hc, h.write hc⟩

end Buffer
