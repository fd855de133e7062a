import Mathlib.Init

/-!
# A list in transit

One side puts a list on a channel piece by piece and the other side takes it
off: when `put` items have gone in and `got` have come out, `transit l got put`
is what is on the channel.
-/

namespace Transit

universe u

variable {β : Type u}

def transit (l : List β) (got put : Nat) : List β := (l.take put).drop got

theorem length_transit {l : List β} {got put : Nat} (h : put ≤ l.length) :
    (transit l got put).length = put - got := by
  rw [transit, List.length_drop, List.length_take, Nat.min_eq_left h]

theorem transit_empty (l : List β) {got put : Nat} (h : put ≤ got) : transit l got put = [] :=
  List.drop_of_length_le (Nat.le_trans (List.length_take_le put l) h)

/-- The next `k` items go in. -/
theorem transit_put {l : List β} {got put : Nat} (hgot : got ≤ put) (hput : put ≤ l.length)
    (k : Nat) : transit l got put ++ (l.drop put).take k = transit l got (put + k) := by
  rw [transit, transit, List.take_add, List.drop_append_of_le_length]
  rw [List.length_take, Nat.min_eq_left hput]
  exact hgot

/-- The next `k` items come out. -/
theorem take_transit {l : List β} {got put k : Nat} (h : got + k ≤ put) :
    (transit l got put).take k = (l.drop got).take k := by
  rw [transit, List.drop_take, List.take_take, Nat.min_eq_left (by omega)]

theorem drop_transit (l : List β) (got put k : Nat) :
    (transit l got put).drop k = transit l (got + k) put := by
  rw [transit, List.drop_drop, transit]

/-- The pieces that have come out, one after the other. -/
theorem take_append_take (l : List β) (got k : Nat) :
    l.take got ++ (l.drop got).take k = l.take (got + k) :=
  List.take_add.symm

end Transit
