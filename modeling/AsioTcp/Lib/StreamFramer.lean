import Mathlib.Init

/-!
# Cutting a stream that arrives in chunks

A `Framer` looks at the front of a stream and says whether it is a message, is
no message, or is too short to tell; what it has once said stays said when more
of the stream arrives. `cut` takes off all the messages there are. By
`cut_append` a reader that keeps what `cut` leaves and cuts again when more has
arrived finds the messages of the whole stream, wherever the stream was
interrupted, and `cut_flatMap` is the round trip with a writer.
-/

namespace StreamFramer

universe u v w

inductive Verdict (μ : Type v) (ε : Type w)
  | more
  | message (m : μ) (len : Nat)
  | stop (e : ε)
  deriving DecidableEq, Repr

structure Framer (α : Type u) (μ : Type v) (ε : Type w) where
  next : List α → Verdict μ ε
  len_pos : ∀ {s m n}, next s = .message m n → 0 < n
  len_le : ∀ {s m n}, next s = .message m n → n ≤ s.length
  message_append : ∀ {s m n} (t : List α), next s = .message m n → next (s ++ t) = .message m n
  stop_append : ∀ {s e} (t : List α), next s = .stop e → next (s ++ t) = .stop e

/-- The messages of a stream, what is left of it, and why it cannot go on. -/
structure Cut (α : Type u) (μ : Type v) (ε : Type w) where
  messages : List μ
  rest : List α
  stop : Option ε
  deriving DecidableEq, Repr

namespace Framer

variable {α : Type u} {μ : Type v} {ε : Type w} (f : Framer α μ ε)

theorem length_drop_lt {s : List α} {m : μ} {n : Nat} (h : f.next s = .message m n) :
    (s.drop n).length < s.length := by
  have hpos := f.len_pos h
  have hle := f.len_le h
  rw [List.length_drop]
  omega

def cut (s : List α) : Cut α μ ε :=
  match _h : f.next s with
  | .more => ⟨[], s, none⟩
  | .stop e => ⟨[], s, some e⟩
  | .message m n =>
    let c := cut (s.drop n)
    ⟨m :: c.messages, c.rest, c.stop⟩
termination_by s.length
decreasing_by exact f.length_drop_lt _h

variable {f}

theorem cut_more {s : List α} (h : f.next s = .more) : f.cut s = ⟨[], s, none⟩ := by
  rw [cut]
  split <;> simp_all

theorem cut_stop {s : List α} {e : ε} (h : f.next s = .stop e) : f.cut s = ⟨[], s, some e⟩ := by
  rw [cut]
  split <;> simp_all

theorem cut_message {s : List α} {m : μ} {n : Nat} (h : f.next s = .message m n) :
    f.cut s = ⟨m :: (f.cut (s.drop n)).messages, (f.cut (s.drop n)).rest,
      (f.cut (s.drop n)).stop⟩ := by
  rw [cut]
  split
  · simp_all
  · simp_all
  · rename_i m' n' h'
    cases h.symm.trans h'
    rfl

/-- Induction along the messages of a stream. -/
theorem cut_induction {motive : List α → Prop}
    (more : ∀ s, f.next s = .more → motive s)
    (stop : ∀ s e, f.next s = .stop e → motive s)
    (message : ∀ s m n, f.next s = .message m n → motive (s.drop n) → motive s)
    (s : List α) : motive s := by
  induction hk : s.length using Nat.strongRecOn generalizing s with
  | ind k ih =>
    cases h : f.next s with
    | more => exact more s h
    | stop e => exact stop s e h
    | message m n => exact message s m n h (ih _ (hk ▸ f.length_drop_lt h) _ rfl)

/-- More of the stream is wanted exactly when nothing has stopped it. -/
theorem next_rest (s : List α) :
    f.next (f.cut s).rest = match (f.cut s).stop with | none => .more | some e => .stop e := by
  induction s using cut_induction (f := f) with
  | more s h => rw [cut_more h]; exact h
  | stop s e h => rw [cut_stop h]; exact h
  | message s m n h ih => rw [cut_message h]; exact ih

theorem next_rest_of_none {s : List α} (h : (f.cut s).stop = none) :
    f.next (f.cut s).rest = .more := by
  rw [next_rest, h]

theorem next_rest_of_some {s : List α} {e : ε} (h : (f.cut s).stop = some e) :
    f.next (f.cut s).rest = .stop e := by
  rw [next_rest, h]

/-- **Chunks.** Cutting what was left together with what has arrived gives the
rest of the messages. -/
theorem cut_append (s t : List α) (h : (f.cut s).stop = none) :
    f.cut (s ++ t) = ⟨(f.cut s).messages ++ (f.cut ((f.cut s).rest ++ t)).messages,
      (f.cut ((f.cut s).rest ++ t)).rest, (f.cut ((f.cut s).rest ++ t)).stop⟩ := by
  induction s using cut_induction (f := f) with
  | more s hs => simp only [cut_more hs, List.nil_append]
  | stop s e hs => rw [cut_stop hs] at h; cases h
  | message s m n hs ih =>
    rw [cut_message hs] at h
    have hdrop : (s ++ t).drop n = s.drop n ++ t := List.drop_append_of_le_length (f.len_le hs)
    rw [cut_message (f.message_append t hs), hdrop, cut_message hs, ih h, List.cons_append]

/-- Once stopped, more of the stream changes nothing but what is left. -/
theorem cut_append_stop (s t : List α) {e : ε} (h : (f.cut s).stop = some e) :
    f.cut (s ++ t) = ⟨(f.cut s).messages, (f.cut s).rest ++ t, some e⟩ := by
  induction s using cut_induction (f := f) with
  | more s hs => rw [cut_more hs] at h; cases h
  | stop s e' hs =>
    rw [cut_stop hs] at h ⊢
    cases h
    rw [cut_stop (f.stop_append t hs)]
  | message s m n hs ih =>
    rw [cut_message hs] at h
    have hdrop : (s ++ t).drop n = s.drop n ++ t := List.drop_append_of_le_length (f.len_le hs)
    rw [cut_message (f.message_append t hs), hdrop, cut_message hs, ih h]

theorem messages_mono (s t : List α) : (f.cut s).messages <+: (f.cut (s ++ t)).messages := by
  cases h : (f.cut s).stop with
  | none =>
    rw [cut_append s t h]
    exact List.prefix_append _ _
  | some e =>
    rewrite [cut_append_stop s t h]
    exact List.prefix_rfl

/-- What is left is the end of the stream. -/
theorem rest_suffix (s : List α) : (f.cut s).rest <:+ s := by
  induction s using cut_induction (f := f) with
  | more s h =>
    rewrite [cut_more h]
    exact List.suffix_rfl
  | stop s e h =>
    rewrite [cut_stop h]
    exact List.suffix_rfl
  | message s m n h ih =>
    rw [cut_message h]
    exact ih.trans (List.drop_suffix n s)

theorem length_rest_le (s : List α) : (f.cut s).rest.length ≤ s.length :=
  (rest_suffix s).length_le

/-- A stream that starts with a message gets shorter. -/
theorem length_rest_lt {s : List α} {m : μ} {n : Nat} (h : f.next s = .message m n) :
    (f.cut s).rest.length < s.length := by
  rw [cut_message h]
  exact Nat.lt_of_le_of_lt (length_rest_le (s.drop n)) (f.length_drop_lt h)

/-- A stream is its messages, as they are written, and what is left. -/
theorem flatMap_append_rest {write : μ → List α}
    (h : ∀ s m n, f.next s = .message m n → s.take n = write m) (s : List α) :
    (f.cut s).messages.flatMap write ++ (f.cut s).rest = s := by
  induction s using cut_induction (f := f) with
  | more s hs => rw [cut_more hs, List.flatMap_nil, List.nil_append]
  | stop s e hs => rw [cut_stop hs, List.flatMap_nil, List.nil_append]
  | message s m n hs ih =>
    rw [cut_message hs, List.flatMap_cons, List.append_assoc, ih, ← h s m n hs,
      List.take_append_drop]

/-- What holds of every message that can be taken off holds of all. -/
theorem forall_messages {p : μ → Prop} (h : ∀ s m n, f.next s = .message m n → p m)
    (s : List α) : ∀ m ∈ (f.cut s).messages, p m := by
  induction s using cut_induction (f := f) with
  | more s hs => rw [cut_more hs]; simp
  | stop s e hs => rw [cut_stop hs]; simp
  | message s m n hs ih =>
    rw [cut_message hs]
    exact List.forall_mem_cons.mpr ⟨h s m n hs, ih⟩

/-- **Round trip.** Messages written one after the other are read back. -/
theorem cut_flatMap {write : μ → List α} {ms : List μ} (hnil : f.next [] = .more)
    (h : ∀ m ∈ ms, f.next (write m) = .message m (write m).length) :
    f.cut (ms.flatMap write) = ⟨ms, [], none⟩ := by
  induction ms with
  | nil => exact cut_more hnil
  | cons m ms ih =>
    have hm := f.message_append (ms.flatMap write) (h m List.mem_cons_self)
    rw [List.flatMap_cons, cut_message hm, List.drop_left,
      ih fun m' hm' => h m' (List.mem_cons_of_mem m hm')]

end Framer

end StreamFramer
