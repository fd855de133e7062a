import Mathlib.Init

/-!
# A list in the order of age

Where whatever comes before something old is old as well, a loop over the old
things of a list may stop at the first one that is not old: it does what a loop
over the whole list does.
-/

universe u

namespace AgeOrder

variable {α : Type u} (old take : α → Bool)

/-- The old come first. -/
def Ordered (l : List α) : Prop := l.Pairwise fun a b => old b = true → old a = true

/-- Take the first one to be taken among the old, and stop at what is not old. -/
def popWhile : List α → Option (α × List α)
  | [] => none
  | a :: l =>
    if old a then
      if take a then some (a, l) else (popWhile l).map fun (b, rest) => (b, a :: rest)
    else none

/-- Take up to `n` of them; what is taken and what is left. -/
def takeWhile : Nat → List α → List α × List α
  | 0, l => ([], l)
  | _ + 1, [] => ([], [])
  | n + 1, a :: l =>
    if old a then
      if take a then (a :: (takeWhile n l).1, (takeWhile n l).2)
      else ((takeWhile (n + 1) l).1, a :: (takeWhile (n + 1) l).2)
    else ([], a :: l)

/-- The same over the whole list. -/
def popAll : List α → Option (α × List α)
  | [] => none
  | a :: l =>
    if old a && take a then some (a, l) else (popAll l).map fun (b, rest) => (b, a :: rest)

def takeAll : Nat → List α → List α × List α
  | 0, l => ([], l)
  | _ + 1, [] => ([], [])
  | n + 1, a :: l =>
    if old a && take a then (a :: (takeAll n l).1, (takeAll n l).2)
    else ((takeAll (n + 1) l).1, a :: (takeAll (n + 1) l).2)

variable {old take}

theorem popAll_of_none {l : List α} (h : ∀ a ∈ l, old a = false) : popAll old take l = none := by
  induction l with
  | nil => rfl
  | cons a l ih =>
    obtain ⟨ha, hl⟩ := List.forall_mem_cons.mp h
    simp [popAll, ha, ih hl]

theorem takeAll_of_none {l : List α} (h : ∀ a ∈ l, old a = false) (n : Nat) :
    takeAll old take n l = ([], l) := by
  induction l with
  | nil => cases n <;> rfl
  | cons a l ih =>
    obtain ⟨ha, hl⟩ := List.forall_mem_cons.mp h
    cases n with
    | zero => rfl
    | succ n => simp [takeAll, ha, ih hl]

/-- Behind one that is not old there is none. -/
theorem Ordered.none_old {a : α} {l : List α} (h : Ordered old (a :: l)) (ha : ¬ old a = true) :
    ∀ b ∈ a :: l, old b = false := by
  intro b hb
  refine eq_false_of_ne_true fun hold => ?_
  obtain rfl | hmem := List.mem_cons.mp hb
  · exact ha hold
  · exact ha (List.rel_of_pairwise_cons h hmem hold)

theorem popWhile_eq {l : List α} (h : Ordered old l) : popWhile old take l = popAll old take l := by
  induction l with
  | nil => rfl
  | cons a l ih =>
    by_cases ha : old a = true
    · simp only [popWhile, popAll, ha, if_true, Bool.true_and, ih (List.Pairwise.of_cons h)]
    · rw [popAll_of_none (h.none_old ha), popWhile, if_neg ha]

theorem takeWhile_eq {l : List α} (h : Ordered old l) (n : Nat) :
    takeWhile old take n l = takeAll old take n l := by
  induction l generalizing n with
  | nil => cases n <;> rfl
  | cons a l ih =>
    cases n with
    | zero => rfl
    | succ n =>
      by_cases ha : old a = true
      · simp only [takeWhile, takeAll, ha, if_true, Bool.true_and, ih (List.Pairwise.of_cons h)]
      · rw [takeAll_of_none (h.none_old ha), takeWhile, if_neg ha]

/-! ## What is taken -/

/-- What is taken is old and to be taken, and is the first such. -/
theorem popAll_eq_some {l rest : List α} {a : α} (h : popAll old take l = some (a, rest)) :
    ∃ front back, l = front ++ a :: back ∧ rest = front ++ back ∧
      (old a && take a) = true ∧ ∀ b ∈ front, (old b && take b) = false := by
  induction l generalizing rest with
  | nil => cases h
  | cons b l ih =>
    rw [popAll] at h
    split at h
    · rename_i hb
      cases h
      exact ⟨[], l, rfl, rfl, hb, fun _ hmem => (List.not_mem_nil hmem).elim⟩
    · rename_i hb
      obtain ⟨⟨c, rest'⟩, hpop, hpair⟩ := Option.map_eq_some_iff.mp h
      cases hpair
      obtain ⟨front, back, rfl, rfl, ha, hfront⟩ := ih hpop
      refine ⟨b :: front, back, rfl, rfl, ha, ?_⟩
      exact List.forall_mem_cons.mpr ⟨eq_false_of_ne_true hb, hfront⟩

theorem popAll_eq_none {l : List α} (h : popAll old take l = none) :
    ∀ a ∈ l, (old a && take a) = false := by
  induction l with
  | nil => exact fun _ hmem => (List.not_mem_nil hmem).elim
  | cons a l ih =>
    rw [popAll] at h
    split at h
    · cases h
    · rename_i ha
      exact List.forall_mem_cons.mpr ⟨eq_false_of_ne_true ha, ih (Option.map_eq_none_iff.mp h)⟩

theorem takeAll_spec (old take : α → Bool) (n : Nat) (l : List α) :
    ((takeAll old take n l).1 ++ (takeAll old take n l).2).Perm l ∧
      (takeAll old take n l).2.Sublist l ∧
      ∀ a ∈ (takeAll old take n l).1, (old a && take a) = true := by
  induction l generalizing n with
  | nil => cases n <;> exact ⟨List.Perm.refl [], List.Sublist.refl [], fun _ h => nomatch h⟩
  | cons a l ih =>
    cases n with
    | zero => exact ⟨List.Perm.refl _, List.Sublist.refl _, fun _ h => nomatch h⟩
    | succ n =>
      rw [takeAll]
      split
      · rename_i ha
        obtain ⟨hperm, hsub, htaken⟩ := ih n
        exact ⟨hperm.cons a, hsub.cons a, List.forall_mem_cons.mpr ⟨ha, htaken⟩⟩
      · obtain ⟨hperm, hsub, htaken⟩ := ih (n + 1)
        exact ⟨List.perm_middle.trans (hperm.cons a), hsub.cons_cons a, htaken⟩

theorem length_takeAll (n : Nat) (l : List α) :
    (takeAll old take n l).1.length = min n (l.countP fun a => old a && take a) := by
  induction l generalizing n with
  | nil => cases n <;> simp [takeAll]
  | cons a l ih =>
    cases n with
    | zero => simp [takeAll]
    | succ n =>
      rw [takeAll]
      split
      · rename_i ha
        rw [List.countP_cons, if_pos ha, List.length_cons, ih n]
        omega
      · rename_i ha
        rw [List.countP_cons, if_neg ha, ih (n + 1)]
        rfl

/-- With no limit nothing is left that is to be taken. -/
theorem takeAll_of_length_le {n : Nat} {l : List α} (h : l.length ≤ n) :
    (takeAll old take n l).2 = l.filter fun a => !(old a && take a) := by
  induction l generalizing n with
  | nil => cases n <;> rfl
  | cons a l ih =>
    cases n with
    | zero => exact absurd h (Nat.not_succ_le_zero _)
    | succ n =>
      have hle := Nat.le_of_succ_le_succ h
      rw [takeAll]
      split
      · rename_i ha
        rw [List.filter_cons_of_neg (by simp [ha]), ih hle]
      · rename_i ha
        rw [List.filter_cons_of_pos (by simp [eq_false_of_ne_true ha]), ih (Nat.le_succ_of_le hle)]

end AgeOrder
