import AsioTcp.Lib.Transition
import Mathlib.Data.Multiset.AddSub
import Mathlib.Data.Multiset.Count

/-!
# Calls interleaved over a shared state

Any number of threads run calls against one shared state. A configuration is
the shared state with the multiset of the calls in progress, each at the point
it has reached; threads have no names, so two calls at the same point are
interchangeable. A step either lets a new call enter or runs one atomic
section of a call in progress, which replaces that call by the calls it
continues as (none when it returns).
-/

namespace Interleaving

universe u v w x

structure Config (σ : Type u) (τ : Type v) where
  shared : σ
  calls : Multiset τ

/-- `enter e`: a call enters. `run c i`: the next atomic section of the call
`c`, with the outcome `i` where the environment decides one. -/
inductive Action (τ : Type v) (ε : Type w) (ι : Type x)
  | enter (e : ε)
  | run (c : τ) (i : ι)

/-- Both functions see the other calls in progress, for guards on them. -/
structure Program (σ : Type u) (τ : Type v) (ε : Type w) (ι : Type x) where
  enter : σ → Multiset τ → ε → Option (σ × Multiset τ)
  next : σ → Multiset τ → τ → ι → Option (σ × Multiset τ)

/-- One call, counted. -/
theorem countP_one {τ : Type v} (p : τ → Prop) [DecidablePred p] (c : τ) :
    ({c} : Multiset τ).countP p = if p c then 1 else 0 := by
  rw [← Multiset.cons_zero, Multiset.countP_cons, Multiset.countP_zero, Nat.zero_add]

variable {σ : Type u} {τ : Type v} {ε : Type w} {ι : Type x} [DecidableEq τ]

def Program.step (p : Program σ τ ε ι) (s : Config σ τ) : Action τ ε ι → Option (Config σ τ)
  | .enter e => (p.enter s.shared s.calls e).map fun r => ⟨r.1, r.2 + s.calls⟩
  | .run c i =>
    if c ∈ s.calls then
      (p.next s.shared (s.calls.erase c) c i).map fun r => ⟨r.1, r.2 + s.calls.erase c⟩
    else none

/-- What an entering call does to a configuration. -/
theorem Program.step_enter {p : Program σ τ ε ι} {s t : Config σ τ} {e : ε}
    (h : p.step s (.enter e) = some t) :
    ∃ cs, p.enter s.shared s.calls e = some (t.shared, cs) ∧ t.calls = cs + s.calls := by
  obtain ⟨⟨s', cs⟩, hr, rfl⟩ := Option.map_eq_some_iff.mp h
  exact ⟨cs, hr, rfl⟩

/-- What an atomic section does: the call that runs is taken out of the calls
in progress and what it continues as is put in. -/
theorem Program.step_run {p : Program σ τ ε ι} {s t : Config σ τ} {c : τ} {i : ι}
    (h : p.step s (.run c i) = some t) :
    ∃ rest cs, s.calls = c ::ₘ rest ∧
      p.next s.shared rest c i = some (t.shared, cs) ∧ t.calls = cs + rest := by
  simp only [Program.step] at h
  split at h
  · rename_i hc
    obtain ⟨⟨s', cs⟩, hr, rfl⟩ := Option.map_eq_some_iff.mp h
    exact ⟨s.calls.erase c, cs, (Multiset.cons_erase hc).symm, hr, rfl⟩
  · cases h

/-- The converse of `step_run`. -/
theorem Program.run_of_next {p : Program σ τ ε ι} {s s' : σ} {c : τ} {i : ι}
    {rest cs : Multiset τ} (h : p.next s rest c i = some (s', cs)) :
    p.step ⟨s, c ::ₘ rest⟩ (.run c i) = some ⟨s', cs + rest⟩ := by
  simp [Program.step, h]

end Interleaving
