import AsioTcp.Lib.Transition
import Mathlib.Data.List.Count
import Mathlib.Logic.Relation
import Mathlib.Order.Basic

/-!
# Lock order

Threads run programs that acquire and release shared and exclusive locks and
wait for other threads to finish; every acquisition and every release is one
step. `Prog.Ordered` is the discipline: a lock is requested only while locks of
strictly lower rank are held, and a thread waits for another one only while it
holds none. It is checked on the text of a program.

* `ordered_of_reach`: in every state of every run each thread holds no more
  than its program may hold at the point it has come to;
* `holds_lt_requests`: so a thread that requests a lock holds only locks of
  strictly lower rank;
* `no_cycle`: so no threads wait for each other in a circle, also where a lock
  turns new readers away while a writer waits.
-/

namespace LockOrder

universe u v w x

inductive Mode
  | shared
  | exclusive
  deriving DecidableEq, Repr

/-- What is left of a call, as far as locks and other threads matter. -/
inductive Prog (κ : Type u) (ι : Type v)
  | done
  | acquire (m : Mode) (l : κ) (next : Prog κ ι)
  | release (l : κ) (next : Prog κ ι)
  /-- a branch that depends on data, or on whether an operation throws -/
  | choose (yes no : Prog κ ι)
  /-- wait for the thread `w` to finish -/
  | join (w : ι) (next : Prog κ ι)

/-- The threads that hold a lock. -/
structure Holders (ι : Type v) where
  readers : List ι
  writer : Option ι

namespace Holders

variable {ι : Type v}

def none : Holders ι := ⟨[], Option.none⟩

/-- The lock can be had in this mode. -/
def free (h : Holders ι) : Mode → Bool
  | .shared => h.writer.isNone
  | .exclusive => h.writer.isNone && h.readers.isEmpty

def take (h : Holders ι) (t : ι) : Mode → Holders ι
  | .shared => { h with readers := t :: h.readers }
  | .exclusive => { h with writer := some t }

variable [DecidableEq ι]

def drop (h : Holders ι) (t : ι) : Holders ι :=
  if h.writer = some t then { h with writer := Option.none }
  else { h with readers := h.readers.erase t }

/-- How often a thread holds the lock. -/
def count (h : Holders ι) (t : ι) : Nat :=
  h.readers.count t + if h.writer = some t then 1 else 0

theorem count_take {h : Holders ι} {m : Mode} (hfree : h.free m = true) (t u : ι) :
    (h.take t m).count u = h.count u + if t = u then 1 else 0 := by
  cases m with
  | shared =>
    show (t :: h.readers).count u + (if h.writer = some u then 1 else 0) = h.count u + _
    rw [List.count_cons, count]
    simp only [beq_iff_eq]
    omega
  | exclusive =>
    have hnone : h.writer = Option.none := by
      rw [free, Bool.and_eq_true] at hfree
      exact Option.isNone_iff_eq_none.mp hfree.1
    simp [take, count, hnone]

theorem count_drop_self (h : Holders ι) (t : ι) : (h.drop t).count t = h.count t - 1 := by
  by_cases hw : h.writer = some t
  · simp [drop, count, hw]
  · simp [drop, count, hw, List.count_erase_self]

theorem count_drop_of_ne (h : Holders ι) {t u : ι} (hne : t ≠ u) :
    (h.drop t).count u = h.count u := by
  by_cases hw : h.writer = some t
  · simp [drop, count, hw, hne]
  · simp [drop, count, hw, List.count_erase_of_ne hne.symm]

end Holders

/-- The functions that threads call. -/
structure System (κ : Type u) (ι : Type v) (φ : Type w) where
  program : φ → Prog κ ι
  runsOn : φ → ι → Bool

structure State (κ : Type u) (ι : Type v) where
  prog : ι → Prog κ ι
  locks : κ → Holders ι
  /-- the thread has ended -/
  finished : ι → Bool

inductive Action (ι : Type v) (φ : Type w)
  /-- a thread that is in no call calls a function -/
  | enter (t : ι) (f : φ)
  /-- one step of a call; the flag decides a branch -/
  | run (t : ι) (b : Bool)
  /-- a thread that is in no call ends -/
  | finish (t : ι)

variable {κ : Type u} {ι : Type v} {φ : Type w} {ρ : Type x}

section Discipline

variable [DecidableEq κ] [Preorder ρ] (rank : κ → ρ) (J : ι → Prop)

/-- The program keeps to the order when it starts with the locks `held`, and
joins only threads in `J`. -/
def Prog.Ordered : List κ → Prog κ ι → Prop
  | held, .done => held = []
  | held, .acquire _ l next => (∀ k ∈ held, rank k < rank l) ∧ Prog.Ordered (l :: held) next
  | held, .release l next => l ∈ held ∧ Prog.Ordered (held.erase l) next
  | held, .choose yes no => Prog.Ordered held yes ∧ Prog.Ordered held no
  | held, .join w next => held = [] ∧ J w ∧ Prog.Ordered [] next

variable {rank J}

theorem Prog.Ordered.acquire {m : Mode} {l : κ} {held : List κ} {next : Prog κ ι}
    (hbelow : ∀ k ∈ held, rank k < rank l) (h : next.Ordered rank J (l :: held)) :
    (Prog.acquire m l next).Ordered rank J held :=
  ⟨hbelow, h⟩

/-- The lock that was acquired last is released. -/
theorem Prog.Ordered.release {l : κ} {held : List κ} {next : Prog κ ι}
    (h : next.Ordered rank J held) : (Prog.release l next).Ordered rank J (l :: held) := by
  refine ⟨List.mem_cons_self, ?_⟩
  rw [List.erase_cons_head]
  exact h

theorem Prog.Ordered.choose {held : List κ} {yes no : Prog κ ι}
    (hyes : yes.Ordered rank J held) (hno : no.Ordered rank J held) :
    (Prog.choose yes no).Ordered rank J held :=
  ⟨hyes, hno⟩

/-- A lock that is held for nothing but itself. -/
theorem Prog.Ordered.acquire_release {m : Mode} {l : κ} {held : List κ} {next : Prog κ ι}
    (hbelow : ∀ k ∈ held, rank k < rank l) (h : next.Ordered rank J held) :
    (Prog.acquire m l (.release l next)).Ordered rank J held :=
  .acquire hbelow (.release h)

theorem Prog.Ordered.join {w : ι} {next : Prog κ ι} (hw : J w) (h : next.Ordered rank J []) :
    (Prog.join w next).Ordered rank J [] :=
  ⟨rfl, hw, h⟩

end Discipline

namespace State

def start : State κ ι := ⟨fun _ => .done, fun _ => .none, fun _ => false⟩

/-- The lock that a thread is about to acquire. -/
def requests (s : State κ ι) (t : ι) : Option (Mode × κ) :=
  match s.prog t with
  | .acquire m l _ => some (m, l)
  | _ => none

/-- The thread that a thread waits for to finish. -/
def joins (s : State κ ι) (t : ι) : Option ι :=
  match s.prog t with
  | .join w _ => some w
  | _ => none

/-- A thread waits for another one. -/
inductive WaitsFor (s : State κ ι) (t u : ι) : Prop
  | writer {m : Mode} {l : κ} : s.requests t = some (m, l) → (s.locks l).writer = some u →
      WaitsFor s t u
  | readers {l : κ} : s.requests t = some (.exclusive, l) → u ∈ (s.locks l).readers →
      WaitsFor s t u
  /-- new readers are turned away while a writer waits -/
  | waiting {l : κ} : s.requests t = some (.shared, l) → s.requests u = some (.exclusive, l) →
      WaitsFor s t u
  | join : s.joins t = some u → s.finished u = false → WaitsFor s t u

theorem requests_of_joins {s : State κ ι} {t w : ι} (hjoin : s.joins t = some w) : s.requests t = none := by
  unfold joins at hjoin
  split at hjoin
  · rename_i hprog
    rw [requests, hprog]
  · cases hjoin

variable [DecidableEq ι]

def Holds (s : State κ ι) (t : ι) (l : κ) : Prop := 0 < (s.locks l).count t

theorem holds_of_writer {s : State κ ι} {t : ι} {l : κ} (h : (s.locks l).writer = some t) : s.Holds t l := by
  rw [Holds, Holders.count, if_pos h]
  exact Nat.succ_pos _

theorem holds_of_reader {s : State κ ι} {t : ι} {l : κ} (h : t ∈ (s.locks l).readers) : s.Holds t l :=
  Nat.add_pos_left (List.count_pos_iff.mpr h) _

variable [DecidableEq κ]

def setProg (s : State κ ι) (t : ι) (p : Prog κ ι) : State κ ι :=
  { s with prog := fun u => if u = t then p else s.prog u }

def setLock (s : State κ ι) (l : κ) (h : Holders ι) : State κ ι :=
  { s with locks := fun k => if k = l then h else s.locks k }

end State

section Requests

variable [Preorder ρ] {rank : κ → ρ}

/-- The lock of the one request is before that of the other, or the two are a
reader and a writer of one lock. -/
def Before (rank : κ → ρ) (x y : Mode × κ) : Prop :=
  rank x.2 < rank y.2 ∨ x.2 = y.2 ∧ x.1 = .shared ∧ y.1 = .exclusive

theorem Before.trans {x y z : Mode × κ} (hxy : Before rank x y) (hyz : Before rank y z) :
    Before rank x z := by
  rcases hxy with hxy | ⟨hxy, -, hexclusive⟩ <;> rcases hyz with hyz | ⟨hyz, hshared, -⟩
  · exact Or.inl (hxy.trans hyz)
  · exact Or.inl (hyz ▸ hxy)
  · exact Or.inl (hxy ▸ hyz)
  · rw [hexclusive] at hshared
    cases hshared

theorem Before.irrefl (x : Mode × κ) : ¬ Before rank x x := by
  rintro (hlt | ⟨-, hshared, hexclusive⟩)
  · exact lt_irrefl _ hlt
  · rw [hshared] at hexclusive
    cases hexclusive

end Requests

variable [DecidableEq κ] [DecidableEq ι]

def System.step (sys : System κ ι φ) (s : State κ ι) : Action ι φ → Option (State κ ι)
  | .enter t f =>
    match s.prog t with
    | .done => if sys.runsOn f t ∧ s.finished t = false then some (s.setProg t (sys.program f)) else none
    | _ => none
  | .run t b =>
    match s.prog t with
    | .done => none
    | .acquire m l next =>
      if (s.locks l).free m then some ((s.setLock l ((s.locks l).take t m)).setProg t next)
      else none
    | .release l next => some ((s.setLock l ((s.locks l).drop t)).setProg t next)
    | .choose yes no => some (s.setProg t (if b then yes else no))
    | .join w next => if s.finished w then some (s.setProg t next) else none
  | .finish t =>
    match s.prog t with
    | .done => some { s with finished := fun u => if u = t then true else s.finished u }
    | _ => none

section Runs

variable [Preorder ρ] {rank : κ → ρ} {worker : ι → Prop}

/-- Workers join no thread, and only workers are joined. -/
def Joins (worker : ι → Prop) (t w : ι) : Prop := ¬ worker t ∧ worker w

/-- Every thread holds at most what its program may hold. -/
def Orderly (rank : κ → ρ) (worker : ι → Prop) (s : State κ ι) : Prop :=
  ∀ t, ∃ held, (s.prog t).Ordered rank (Joins worker t) held ∧
    ∀ l, (s.locks l).count t ≤ held.count l

/-- A thread goes on to `p`, and nothing is acquired or released. -/
theorem Orderly.setProg {s : State κ ι} (h : Orderly rank worker s) {t : ι} {p : Prog κ ι}
    (hp : ∀ held, (s.prog t).Ordered rank (Joins worker t) held →
      ∃ held', p.Ordered rank (Joins worker t) held' ∧ ∀ l, held.count l ≤ held'.count l) :
    Orderly rank worker (s.setProg t p) := by
  intro u
  obtain ⟨held, hordered, hcount⟩ := h u
  by_cases hu : u = t
  · subst hu
    obtain ⟨held', hordered', hle⟩ := hp held hordered
    refine ⟨held', ?_, fun l => ?_⟩
    · simpa [State.setProg] using hordered'
    · exact Nat.le_trans (hcount l) (hle l)
  · refine ⟨held, ?_, hcount⟩
    simpa [State.setProg, hu] using hordered

/-- A thread acquires or releases `l`, and goes on to `p`. -/
theorem Orderly.setLock {s : State κ ι} (h : Orderly rank worker s) {t : ι} {l : κ}
    {holders : Holders ι} {p : Prog κ ι}
    (hother : ∀ u, t ≠ u → holders.count u = (s.locks l).count u)
    (hp : ∀ held, (s.prog t).Ordered rank (Joins worker t) held →
      (s.locks l).count t ≤ held.count l → ∃ held', p.Ordered rank (Joins worker t) held' ∧
        holders.count t ≤ held'.count l ∧ ∀ k ≠ l, held.count k = held'.count k) :
    Orderly rank worker ((s.setLock l holders).setProg t p) := by
  intro u
  obtain ⟨held, hordered, hcount⟩ := h u
  by_cases hu : u = t
  · subst hu
    obtain ⟨held', hordered', hself, hsame⟩ := hp held hordered (hcount l)
    refine ⟨held', by simpa [State.setProg] using hordered', fun k => ?_⟩
    by_cases hk : k = l
    · subst hk
      simpa [State.setProg, State.setLock] using hself
    · simpa [State.setProg, State.setLock, hk, ← hsame k hk] using hcount k
  · refine ⟨held, by simpa [State.setProg, State.setLock, hu] using hordered, fun k => ?_⟩
    by_cases hk : k = l
    · subst hk
      simpa [State.setProg, State.setLock, hother u (Ne.symm hu)] using hcount k
    · simpa [State.setProg, State.setLock, hk] using hcount k

theorem orderly_step {sys : System κ ι φ} (hsys : ∀ f t, sys.runsOn f t = true →
    (sys.program f).Ordered rank (Joins worker t) []) {s t : State κ ι} {a : Action ι φ}
    (h : Orderly rank worker s) (hs : sys.step s a = some t) : Orderly rank worker t := by
  cases a with
  | enter u f =>
    simp only [System.step] at hs
    split at hs
    · rename_i hdone
      split at hs <;> cases hs
      rename_i hruns
      apply h.setProg
      intro held hheld
      rw [hdone] at hheld
      obtain rfl : held = [] := hheld
      exact ⟨[], hsys f u hruns.1, fun _ => Nat.le_refl _⟩
    · cases hs
  | finish u =>
    simp only [System.step] at hs
    split at hs <;> cases hs
    exact h
  | run u b =>
    simp only [System.step] at hs
    split at hs
    · cases hs
    · rename_i m l next hprog
      split at hs <;> cases hs
      rename_i hfree
      apply h.setLock
      · intro v hv
        rw [Holders.count_take hfree, if_neg hv]
        rfl
      · intro held hheld hcount
        rw [hprog] at hheld
        refine ⟨l :: held, hheld.2, ?_, fun k hk => ?_⟩
        · rw [Holders.count_take hfree, if_pos rfl, List.count_cons_self]
          omega
        · rw [List.count_cons_of_ne (Ne.symm hk)]
    · rename_i l next hprog
      cases hs
      apply h.setLock
      · exact fun v hv => Holders.count_drop_of_ne _ hv
      · intro held hheld hcount
        rw [hprog] at hheld
        refine ⟨held.erase l, hheld.2, ?_, fun k hk => ?_⟩
        · rw [Holders.count_drop_self, List.count_erase_self]
          omega
        · rw [List.count_erase_of_ne hk]
    · rename_i yes no hprog
      cases hs
      apply h.setProg
      intro held hheld
      rw [hprog] at hheld
      cases b with
      | true => exact ⟨held, hheld.1, fun _ => Nat.le_refl _⟩
      | false => exact ⟨held, hheld.2, fun _ => Nat.le_refl _⟩
    · rename_i w next hprog
      split at hs <;> cases hs
      apply h.setProg
      intro held hheld
      rw [hprog] at hheld
      obtain ⟨rfl, -, hnext⟩ := hheld
      exact ⟨[], hnext, fun _ => Nat.le_refl _⟩

/-- **Run lemma.** If every function keeps to the order, so does every thread
in every state of every run. -/
theorem ordered_of_reach {sys : System κ ι φ} (hsys : ∀ f t, sys.runsOn f t = true →
    (sys.program f).Ordered rank (Joins worker t) []) {ok : State κ ι → Action ι φ → Prop}
    {s : State κ ι} (h : Transition.Reach sys.step ok .start s) : Orderly rank worker s := by
  refine h.invariant (fun t => ⟨[], rfl, fun _ => Nat.le_refl _⟩) fun _ _ _ _ hs _ hstep => ?_
  exact orderly_step hsys hs hstep

end Runs

/-! ## No circle of threads -/

section Waiting

variable [Preorder ρ] {rank : κ → ρ} {worker : ι → Prop} {s : State κ ι}

/-- A thread that requests a lock holds only locks of strictly lower rank. -/
theorem holds_lt_requests (h : Orderly rank worker s) {t : ι} {m : Mode} {l k : κ}
    (hreq : s.requests t = some (m, l)) (hholds : s.Holds t k) : rank k < rank l := by
  obtain ⟨held, hordered, hcount⟩ := h t
  have hmem : k ∈ held := List.count_pos_iff.mp (Nat.lt_of_lt_of_le hholds (hcount k))
  unfold State.requests at hreq
  split at hreq
  · rename_i hprog
    cases hreq
    rw [hprog] at hordered
    exact hordered.1 k hmem
  · cases hreq

/-- A thread that waits for another one to finish holds nothing, is no worker,
and the other one is. -/
theorem joins_spec (h : Orderly rank worker s) {t w : ι} (hjoin : s.joins t = some w) :
    (∀ l, ¬ s.Holds t l) ∧ ¬ worker t ∧ worker w := by
  obtain ⟨held, hordered, hcount⟩ := h t
  unfold State.joins at hjoin
  split at hjoin
  · rename_i hprog
    cases hjoin
    rw [hprog] at hordered
    obtain ⟨rfl, hworker, -⟩ := hordered
    exact ⟨fun l hl => absurd (hcount l) (Nat.not_le.mpr hl), hworker⟩
  · cases hjoin

/-- Along a wait the requests go up. -/
theorem before_of_waits (h : Orderly rank worker s) {t u : ι} (hwaits : s.WaitsFor t u)
    {x y : Mode × κ} (hx : s.requests t = some x) (hy : s.requests u = some y) :
    Before rank x y := by
  cases hwaits with
  | writer hreq hholds =>
    cases hx.symm.trans hreq
    exact Or.inl (holds_lt_requests h hy (State.holds_of_writer hholds))
  | readers hreq hholds =>
    cases hx.symm.trans hreq
    exact Or.inl (holds_lt_requests h hy (State.holds_of_reader hholds))
  | waiting hreq hreq' =>
    cases hx.symm.trans hreq
    cases hy.symm.trans hreq'
    exact Or.inr ⟨rfl, rfl, rfl⟩
  | join hjoin =>
    rw [State.requests_of_joins hjoin] at hx
    cases hx

/-- Nobody waits for a thread that waits for another one to finish. -/
theorem requests_of_waits (h : Orderly rank worker s) {t u v : ι} (htu : s.WaitsFor t u)
    (huv : s.WaitsFor u v) : ∃ x, s.requests u = some x := by
  cases huv with
  | writer hreq | readers hreq | waiting hreq => exact ⟨_, hreq⟩
  | join hjoin =>
    exfalso
    obtain ⟨hnone, hnot, -⟩ := joins_spec h hjoin
    cases htu with
    | writer _ hholds => exact hnone _ (State.holds_of_writer hholds)
    | readers _ hholds => exact hnone _ (State.holds_of_reader hholds)
    | waiting _ hreq =>
      rw [State.requests_of_joins hjoin] at hreq
      cases hreq
    | join hjoin' => exact hnot (joins_spec h hjoin').2.2

/-- **No circle.** -/
theorem no_cycle (h : Orderly rank worker s) (t : ι) : ¬ Relation.TransGen s.WaitsFor t t := by
  have hup : ∀ {u}, Relation.TransGen s.WaitsFor t u → ∀ x y, s.requests t = some x →
      s.requests u = some y → Before rank x y := by
    intro u hpath
    induction hpath with
    | single hwaits => exact fun x y => before_of_waits h hwaits
    | @tail v w hpath hwaits ih =>
      intro x y hx hy
      obtain ⟨u, -, hlast⟩ := (Relation.TransGen.tail'_iff).mp hpath
      obtain ⟨z, hz⟩ := requests_of_waits h hlast hwaits
      exact (ih x z hx hz).trans (before_of_waits h hwaits hz hy)
  intro hcycle
  obtain ⟨u, hfirst, -⟩ := (Relation.TransGen.head'_iff).mp hcycle
  obtain ⟨v, -, hlast⟩ := (Relation.TransGen.tail'_iff).mp hcycle
  obtain ⟨x, hx⟩ := requests_of_waits h hlast hfirst
  exact Before.irrefl x (hup hcycle x x hx hx)

end Waiting

end LockOrder
