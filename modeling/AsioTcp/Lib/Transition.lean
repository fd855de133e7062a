import Mathlib.Init

/-!
# Runs of a partial step function

A machine is a function `step : σ → α → Option σ`; `step s a = none` says that
action `a` is not possible in `s`. `Reach step ok start` holds of the states
that a run from `start` can reach when every action it takes is `ok` in the
state it is taken in; with `ok := fun _ _ => True` these are all runs. Safety
properties come from `Reach.invariant`, properties of one machine from another
by `Reach.simulate`, and a concrete run from `Reach.of_exec`.
-/

namespace Transition

universe u v w x

variable {σ : Type u} {α : Type v} {σ' : Type w} {α' : Type x}

/-- Take the actions of a list one after the other. -/
def exec (step : σ → α → Option σ) : σ → List α → Option σ
  | s, [] => some s
  | s, a :: as => (step s a).bind fun t => exec step t as

/-- The step function that refuses an action that is not `ok`. -/
def guarded (step : σ → α → Option σ) (ok : σ → α → Prop) [∀ s a, Decidable (ok s a)] :
    σ → α → Option σ :=
  fun s a => if ok s a then step s a else none

inductive Reach (step : σ → α → Option σ) (ok : σ → α → Prop) (start : σ) : σ → Prop
  | refl : Reach step ok start start
  | tail {s t : σ} {a : α} :
      Reach step ok start s → ok s a → step s a = some t → Reach step ok start t

/-- No condition on the actions of a run. -/
def always : σ → α → Prop := fun _ _ => True

namespace Reach

variable {step : σ → α → Option σ} {ok : σ → α → Prop} {start : σ}

theorem trans {s t : σ} (h : Reach step ok start s) (h' : Reach step ok s t) :
    Reach step ok start t := by
  induction h' with
  | refl => exact h
  | tail _ hok hs ih => exact ih.tail hok hs

theorem single {s t : σ} {a : α} (hok : ok s a) (hs : step s a = some t) :
    Reach step ok s t :=
  refl.tail hok hs

theorem mono {ok' : σ → α → Prop} (hsub : ∀ s a, ok s a → ok' s a) {s : σ}
    (h : Reach step ok start s) : Reach step ok' start s := by
  induction h with
  | refl => exact refl
  | tail _ hok hs ih => exact ih.tail (hsub _ _ hok) hs

/-- **Invariant rule.** What holds at the start and is kept by every step
from a reachable state holds in every reachable state. -/
theorem invariant {P : σ → Prop} (hstart : P start)
    (hstep : ∀ s a t, Reach step ok start s → P s → ok s a → step s a = some t → P t)
    {s : σ} (h : Reach step ok start s) : P s := by
  induction h with
  | refl => exact hstart
  | tail hr hok hs ih => exact hstep _ _ _ hr ih hok hs

/-- **Simulation rule.** If every step of one machine is a (possibly empty)
run of the other under `f`, so is every run. -/
theorem simulate {step' : σ' → α' → Option σ'} {ok' : σ' → α' → Prop} {start' : σ'}
    (f : σ → σ') (hstart : f start = start')
    (hstep : ∀ s a t, Reach step ok start s → ok s a → step s a = some t →
      Reach step' ok' (f s) (f t))
    {s : σ} (h : Reach step ok start s) : Reach step' ok' start' (f s) := by
  induction h with
  | refl => rw [hstart]; exact refl
  | tail hr hok hs ih => exact ih.trans (hstep _ _ _ hr hok hs)

theorem of_exec_guarded [∀ s a, Decidable (ok s a)] {s t : σ} (as : List α)
    (h : exec (guarded step ok) s as = some t) : Reach step ok s t := by
  induction as generalizing s with
  | nil => cases h; exact refl
  | cons a as ih =>
    obtain ⟨u, hu, ht⟩ := Option.bind_eq_some_iff.mp h
    unfold guarded at hu
    split at hu
    · rename_i hok
      exact (single hok hu).trans (ih ht)
    · cases hu

/-- Actions that are `ok` in every state -/
theorem of_exec_forall {s t : σ} (as : List α) (hok : ∀ a ∈ as, ∀ s, ok s a)
    (h : exec step s as = some t) : Reach step ok s t := by
  induction as generalizing s with
  | nil => cases h; exact refl
  | cons a as ih =>
    obtain ⟨u, hu, ht⟩ := Option.bind_eq_some_iff.mp h
    obtain ⟨ha, has⟩ := List.forall_mem_cons.mp hok
    exact (single (ha s) hu).trans (ih has ht)

theorem of_exec {s t : σ} (as : List α) (h : exec step s as = some t) :
    Reach step always s t :=
  of_exec_forall as (fun _ _ _ => trivial) h

end Reach

end Transition
