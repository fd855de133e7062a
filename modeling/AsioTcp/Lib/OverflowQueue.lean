import AsioTcp.Lib.Transition

/-!
# A queue with an overflow

What is put into a full queue waits in a second one behind it, from which it is
spliced to the end of the first. Items can also be put into the first queue
directly while others still wait in the second: then the order between the two
kinds is lost, though not the one within each of them.
-/

open Transition

universe u

/-- The two queues, and what has gone in (directly, behind, in all) and out
(taken, dropped) so far. -/
structure OverflowQueue (α : Type u) where
  main : List α
  overflow : List α
  direct : List α
  posted : List α
  accepted : List α
  taken : List α
  dropped : List α

namespace OverflowQueue

variable {α : Type u}

inductive Op (α : Type u)
  | push (a : α)
  | post (a : α)
  | splice (n : Nat)
  | take
  | dropMain (n : Nat)
  | dropOverflow (n : Nat)

def step (q : OverflowQueue α) : Op α → Option (OverflowQueue α)
  | .push a =>
    some { q with
      main := q.main ++ [a], direct := q.direct ++ [a], accepted := q.accepted ++ [a] }
  | .post a =>
    some { q with
      overflow := q.overflow ++ [a], posted := q.posted ++ [a], accepted := q.accepted ++ [a] }
  | .splice n =>
    some { q with main := q.main ++ q.overflow.take n, overflow := q.overflow.drop n }
  | .take =>
    match q.main with
    | [] => none
    | a :: rest => some { q with main := rest, taken := q.taken ++ [a] }
  | .dropMain n =>
    some { q with main := q.main.drop n, dropped := q.dropped ++ q.main.take n }
  | .dropOverflow n =>
    some { q with overflow := q.overflow.drop n, dropped := q.dropped ++ q.overflow.take n }

def empty : OverflowQueue α := ⟨[], [], [], [], [], [], []⟩

/-- Nothing is dropped. -/
def NoDrop : OverflowQueue α → Op α → Prop
  | _, .dropMain _ => False
  | _, .dropOverflow _ => False
  | _, _ => True

/-- Nothing is dropped, nor put past what waits. -/
def InTurn : OverflowQueue α → Op α → Prop
  | q, .push _ => q.overflow = []
  | _, .dropMain _ => False
  | _, .dropOverflow _ => False
  | _, _ => True

theorem step_take {q q' : OverflowQueue α} (h : step q .take = some q') :
    ∃ a rest, q.main = a :: rest ∧ q' = { q with main := rest, taken := q.taken ++ [a] } := by
  unfold step at h
  cases hmain : q.main with
  | nil =>
    rw [hmain] at h
    cases h
  | cons a rest =>
    rw [hmain] at h
    exact ⟨a, rest, rfl, (Option.some.inj h).symm⟩

/-! ## Nothing is lost and nothing is doubled -/

section Count

variable [DecidableEq α]

theorem count_take_drop (x : α) (n : Nat) (l : List α) :
    (l.take n).count x + (l.drop n).count x = l.count x := by
  rw [← List.count_append, List.take_append_drop]

theorem step_count {q q' : OverflowQueue α} {op : Op α} (hs : step q op = some q') (x : α)
    (h : (q.taken ++ q.main ++ q.overflow ++ q.dropped).count x = q.accepted.count x) :
    (q'.taken ++ q'.main ++ q'.overflow ++ q'.dropped).count x = q'.accepted.count x := by
  simp only [List.count_append] at h ⊢
  cases op with
  | push a =>
    cases hs
    simp only [List.count_append]
    omega
  | post a =>
    cases hs
    simp only [List.count_append]
    omega
  | splice n =>
    have hsplit := count_take_drop x n q.overflow
    cases hs
    simp only [List.count_append]
    omega
  | take =>
    obtain ⟨a, rest, hmain, rfl⟩ := step_take hs
    rw [hmain, ← List.singleton_append, List.count_append] at h
    simp only [List.count_append]
    omega
  | dropMain n =>
    have hsplit := count_take_drop x n q.main
    cases hs
    simp only [List.count_append]
    omega
  | dropOverflow n =>
    have hsplit := count_take_drop x n q.overflow
    cases hs
    simp only [List.count_append]
    omega

theorem conserved {q : OverflowQueue α} (h : Reach step always empty q) :
    (q.taken ++ q.main ++ q.overflow ++ q.dropped).Perm q.accepted := by
  refine List.perm_iff_count.mpr fun x => ?_
  exact Reach.invariant (P := fun q =>
    (q.taken ++ q.main ++ q.overflow ++ q.dropped).count x = q.accepted.count x)
    rfl (fun _ _ _ _ ih _ hs => step_count hs x ih) h

end Count

/-! ## Order -/

/-- Each of the two ways keeps its order. -/
structure Ordered (q : OverflowQueue α) : Prop where
  direct : q.direct.Sublist (q.taken ++ q.main)
  posted : ∃ front, q.posted = front ++ q.overflow ∧ front.Sublist (q.taken ++ q.main)

theorem step_ordered {q q' : OverflowQueue α} {op : Op α} (hok : NoDrop q op)
    (hs : step q op = some q') (h : q.Ordered) : q'.Ordered := by
  obtain ⟨hdirect, front, hposted, hfront⟩ := h
  cases op with
  | push a =>
    cases hs
    refine ⟨?_, front, hposted, ?_⟩
    · rw [← List.append_assoc]
      exact hdirect.append (List.Sublist.refl [a])
    · rw [← List.append_assoc]
      exact hfront.trans (List.sublist_append_left _ [a])
  | post a =>
    cases hs
    exact ⟨hdirect, front, by rw [hposted, List.append_assoc], hfront⟩
  | splice n =>
    cases hs
    refine ⟨?_, front ++ q.overflow.take n, ?_, ?_⟩
    · rw [← List.append_assoc]
      exact hdirect.trans (List.sublist_append_left _ _)
    · rw [hposted, List.append_assoc, List.take_append_drop]
    · rw [← List.append_assoc]
      exact hfront.append (List.Sublist.refl _)
  | take =>
    obtain ⟨a, rest, hmain, rfl⟩ := step_take hs
    rw [hmain, ← List.singleton_append, ← List.append_assoc] at hdirect hfront
    exact ⟨hdirect, front, hposted, hfront⟩
  | dropMain n => exact hok.elim
  | dropOverflow n => exact hok.elim

theorem ordered {q : OverflowQueue α} (h : Reach step NoDrop empty q) : q.Ordered :=
  Reach.invariant (P := Ordered) ⟨List.nil_sublist _, [], rfl, List.nil_sublist _⟩
    (fun _ _ _ _ ih hok hs => step_ordered hok hs ih) h

theorem step_inTurn {q q' : OverflowQueue α} {op : Op α} (hok : InTurn q op)
    (hs : step q op = some q') (h : q.accepted = q.taken ++ (q.main ++ q.overflow)) :
    q'.accepted = q'.taken ++ (q'.main ++ q'.overflow) := by
  cases op with
  | push a =>
    cases hs
    have hempty : q.overflow = [] := hok
    simp only [hempty, List.append_nil] at h ⊢
    rw [h, List.append_assoc]
  | post a =>
    cases hs
    simp only [h, List.append_assoc]
  | splice n =>
    cases hs
    simp only [h, List.append_assoc, List.take_append_drop]
  | take =>
    obtain ⟨a, rest, hmain, rfl⟩ := step_take hs
    simp only [h, hmain, List.append_assoc, List.cons_append, List.nil_append]
  | dropMain n => exact hok.elim
  | dropOverflow n => exact hok.elim

/-- First in, first out. -/
theorem inTurn {q : OverflowQueue α} (h : Reach step InTurn empty q) :
    q.accepted = q.taken ++ (q.main ++ q.overflow) :=
  Reach.invariant (P := fun q => q.accepted = q.taken ++ (q.main ++ q.overflow)) rfl
    (fun _ _ _ _ ih hok hs => step_inTurn hok hs ih) h

end OverflowQueue
