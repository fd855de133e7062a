import Mathlib.Init

/-!
# The first occurrence of one list in another

`FirstAt sub mem i`: `sub` stands in `mem` at `i` and nowhere before. What
comes behind the occurrence has no influence on it (`FirstAt.append`).
-/

universe u

variable {α : Type u}

structure FirstAt (sub mem : List α) (i : Nat) : Prop where
  here : sub <+: mem.drop i
  earlier : ∀ j < i, ¬ sub <+: mem.drop j

namespace FirstAt

variable {sub mem : List α} {i j : Nat}

theorem unique (hi : FirstAt sub mem i) (hj : FirstAt sub mem j) : i = j := by
  rcases Nat.lt_trichotomy i j with h | h | h
  · exact absurd hi.here (hj.earlier i h)
  · exact h
  · exact absurd hj.here (hi.earlier j h)

theorem le_length (hne : sub ≠ []) (h : FirstAt sub mem i) : i + sub.length ≤ mem.length := by
  have hle := h.here.length_le
  have hpos := List.length_pos_iff.mpr hne
  rw [List.length_drop] at hle
  omega

theorem zero_iff : FirstAt sub mem 0 ↔ sub <+: mem :=
  ⟨fun h => h.here, fun h => ⟨h, fun _ hj => absurd hj (Nat.not_lt_zero _)⟩⟩

/-- One place further, when it does not stand in front. -/
theorem cons_iff {a : α} (h : ¬ sub <+: a :: mem) :
    FirstAt sub (a :: mem) i ↔ ∃ k, i = k + 1 ∧ FirstAt sub mem k := by
  constructor
  · intro hi
    cases i with
    | zero => exact absurd hi.here h
    | succ k => exact ⟨k, rfl, hi.here, fun j hj => hi.earlier (j + 1) (Nat.succ_lt_succ hj)⟩
  · rintro ⟨k, rfl, hk⟩
    refine ⟨hk.here, fun j hj => ?_⟩
    cases j with
    | zero => exact h
    | succ j => exact hk.earlier j (Nat.lt_of_succ_lt_succ hj)

/-- There is a first occurrence when there is any. -/
theorem exists_iff : (∃ i, FirstAt sub mem i) ↔ sub <:+: mem := by
  constructor
  · rintro ⟨i, hi⟩
    exact hi.here.isInfix.trans (List.drop_suffix i mem).isInfix
  · intro h
    induction mem with
    | nil => exact ⟨0, zero_iff.mpr (List.infix_nil.mp h ▸ List.nil_prefix)⟩
    | cons a mem ih =>
      by_cases hhere : sub <+: a :: mem
      · exact ⟨0, zero_iff.mpr hhere⟩
      · obtain ⟨i, hi⟩ := ih ((List.infix_cons_iff.mp h).resolve_left hhere)
        exact ⟨i + 1, (cons_iff hhere).mpr ⟨i, rfl, hi⟩⟩

/-- An occurrence that ends within `mem` is one in `mem`. -/
theorem occurs_append_iff (t : List α) (h : i + sub.length ≤ mem.length) :
    sub <+: (mem ++ t).drop i ↔ sub <+: mem.drop i := by
  rw [List.drop_append_of_le_length (by omega)]
  constructor
  · intro hocc
    refine List.prefix_of_prefix_length_le hocc (List.prefix_append _ t) ?_
    rw [List.length_drop]
    omega
  · exact fun hocc => hocc.trans (List.prefix_append _ t)

theorem append (hne : sub ≠ []) (t : List α) (h : FirstAt sub mem i) :
    FirstAt sub (mem ++ t) i := by
  have hle := h.le_length hne
  constructor
  · exact (occurs_append_iff t hle).mpr h.here
  · intro j hj hocc
    exact h.earlier j hj ((occurs_append_iff t (by omega)).mp hocc)

/-- What comes behind the occurrence can be taken away. -/
theorem of_append (hne : sub ≠ []) (t : List α) (hle : i + sub.length ≤ mem.length)
    (h : FirstAt sub (mem ++ t) i) : FirstAt sub mem i := by
  have hpos := List.length_pos_iff.mpr hne
  constructor
  · exact (occurs_append_iff t hle).mp h.here
  · intro j hj hocc
    exact h.earlier j hj ((occurs_append_iff t (by omega)).mpr hocc)

end FirstAt
