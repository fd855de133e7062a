import Mathlib.Init

/-!
# A line in which things wait

Things join a line at its end and leave it from anywhere; one can also be let
past others. What is in the line or has left it is what has joined, and as long
as none is let past another the line is in the order in which they have joined.
-/

universe u

structure WaitingLine (α : Type u) where
  line : List α
  joined : List α
  left : List α

namespace WaitingLine

variable {α : Type u}

/-- A step of the line; things may pass each other only if `past`. -/
inductive Step (past : Prop) : WaitingLine α → WaitingLine α → Prop
  | same (w : WaitingLine α) : Step past w w
  | join (line joined left new : List α) :
      Step past ⟨line, joined, left⟩ ⟨line ++ new, joined ++ new, left⟩
  | leave (front out back joined left left' : List α) : left'.Perm (out ++ left) →
      Step past ⟨front ++ (out ++ back), joined, left⟩ ⟨front ++ back, joined, left'⟩
  | pass (front passed back joined left : List α) (a : α) : past →
      Step past ⟨front ++ (passed ++ a :: back), joined, left⟩
        ⟨front ++ a :: (passed ++ back), joined, left⟩

/-- Nothing is lost or doubled. -/
def Conserved (w : WaitingLine α) : Prop := (w.line ++ w.left).Perm w.joined

/-- Each is where it has joined. -/
def Ordered (w : WaitingLine α) : Prop := w.line.Sublist w.joined

theorem Step.conserved {past : Prop} {w w' : WaitingLine α} (h : Step past w w')
    (hw : w.Conserved) : w'.Conserved := by
  unfold Conserved at hw ⊢
  cases h with
  | same => exact hw
  | join line joined left new =>
    refine List.Perm.trans ?_ (hw.append_right new)
    simp only [List.append_assoc]
    exact List.perm_append_comm.append_left line
  | leave front out back joined left left' hleft =>
    refine List.Perm.trans ((hleft.append_left (front ++ back)).trans ?_) hw
    simp only [List.append_assoc]
    refine List.Perm.append_left front ?_
    rw [← List.append_assoc, ← List.append_assoc]
    exact List.perm_append_comm.append_right left
  | pass front passed back joined left a =>
    refine List.Perm.trans (List.Perm.append_right left ?_) hw
    exact List.perm_middle.symm.append_left front

theorem Step.ordered {past : Prop} (hpast : ¬ past) {w w' : WaitingLine α} (h : Step past w w')
    (hw : w.Ordered) : w'.Ordered := by
  unfold Ordered at hw ⊢
  cases h with
  | same => exact hw
  | join line joined left new => exact hw.append (List.Sublist.refl new)
  | leave front out back joined left left' hleft =>
    exact ((List.sublist_append_right out back).append_left front).trans hw
  | pass front passed back joined left a hpassed => exact absurd hpassed hpast

/-- A line in order that nothing has left is the line of those that have joined. -/
theorem eq_joined {w : WaitingLine α} (hc : w.Conserved) (ho : w.Ordered) (hleft : w.left = []) :
    w.line = w.joined := by
  unfold Conserved at hc
  rw [hleft, List.append_nil] at hc
  exact ho.eq_of_length hc.length_eq

end WaitingLine
