import Mathlib.Init

/-!
# Streams of length-prefixed frames

A frame is a header of fixed size followed by a body whose size the header
says. `Format.frames` cuts a stream into its complete frames; what is left at
the end is dropped. `frames_of_header` and `awaitBody` follow a reader that
takes the header first and the body second, and `frames_flatMap` is the round
trip with a writer. `receive` reads a given number of items from a stream that
arrives in segments.
-/

namespace Framing

universe u

structure Format (β : Type u) where
  headerSize : Nat
  headerSize_pos : 0 < headerSize
  bodySize : List β → Nat

namespace Format

variable {β : Type u} (f : Format β)

/-- The complete frames of a stream: header and body of each. -/
def frames (s : List β) : List (List β × List β) :=
  if s.length < f.headerSize then []
  else
    let header := s.take f.headerSize
    let rest := s.drop f.headerSize
    if rest.length < f.bodySize header then []
    else (header, rest.take (f.bodySize header)) :: frames (rest.drop (f.bodySize header))
termination_by s.length
decreasing_by
  have hpos := f.headerSize_pos
  simp only [List.length_drop]
  omega

/-- The complete frames that are still to come when `header` has been read. -/
def awaitBody (header s : List β) : List (List β × List β) :=
  if s.length < f.bodySize header then []
  else (header, s.take (f.bodySize header)) :: f.frames (s.drop (f.bodySize header))

variable {f}

theorem frames_of_short {s : List β} (h : s.length < f.headerSize) : f.frames s = [] := by
  rw [frames, if_pos h]

theorem frames_of_header {s : List β} (h : f.headerSize ≤ s.length) :
    f.frames s = f.awaitBody (s.take f.headerSize) (s.drop f.headerSize) := by
  rw [frames, if_neg (Nat.not_lt.mpr h)]
  rfl

theorem awaitBody_of_short {header s : List β} (h : s.length < f.bodySize header) :
    f.awaitBody header s = [] := if_pos h

theorem awaitBody_of_body {header s : List β} (h : f.bodySize header ≤ s.length) :
    f.awaitBody header s =
      (header, s.take (f.bodySize header)) :: f.frames (s.drop (f.bodySize header)) :=
  if_neg (Nat.not_lt.mpr h)

theorem frames_append {header body : List β} (hh : header.length = f.headerSize)
    (hb : body.length = f.bodySize header) (rest : List β) :
    f.frames (header ++ (body ++ rest)) = (header, body) :: f.frames rest := by
  have htake : (header ++ (body ++ rest)).take f.headerSize = header := by
    rw [← hh, List.take_left']
    rfl
  have hdrop : (header ++ (body ++ rest)).drop f.headerSize = body ++ rest := by
    rw [← hh, List.drop_left']
    rfl
  rw [frames_of_header (by simp [hh]), htake, hdrop, awaitBody_of_body (by simp [hb]), ← hb]
  simp

/-- **Round trip.** Frames written one after the other are read back. -/
theorem frames_flatMap {fs : List (List β × List β)}
    (h : ∀ p ∈ fs, p.1.length = f.headerSize ∧ p.2.length = f.bodySize p.1) :
    f.frames (fs.flatMap fun p => p.1 ++ p.2) = fs := by
  induction fs with
  | nil => exact frames_of_short f.headerSize_pos
  | cons p fs ih =>
    obtain ⟨hh, hb⟩ := h p List.mem_cons_self
    rw [List.flatMap_cons, List.append_assoc, frames_append hh hb,
      ih fun q hq => h q (List.mem_cons_of_mem p hq)]

end Format

variable {β : Type u}

/-- The first `n` items of a stream in segments, or all there are, and the
segments that are left. -/
def receive : Nat → List (List β) → List β × List (List β)
  | _, [] => ([], [])
  | n, seg :: segs =>
    if n ≤ seg.length then (seg.take n, seg.drop n :: segs)
    else
      let r := receive (n - seg.length) segs
      (seg ++ r.1, r.2)

/-- However the stream is cut into segments, the items come in order. -/
theorem receive_flatten (n : Nat) (segs : List (List β)) :
    (receive n segs).1 = segs.flatten.take n ∧
      (receive n segs).2.flatten = segs.flatten.drop n := by
  induction segs generalizing n with
  | nil => simp [receive]
  | cons seg segs ih =>
    unfold receive
    split
    · rename_i hle
      simp [List.take_append_of_le_length hle, List.drop_append_of_le_length hle]
    · rename_i hgt
      obtain ⟨h₁, h₂⟩ := ih (n - seg.length)
      have hle : seg.length ≤ n := by omega
      simp [h₁, h₂, List.take_append, List.drop_append, List.take_of_length_le hle,
        List.drop_of_length_le hle]

end Framing
