/-!
Contract: which part of a long list is shown.

Owns: how an offset follows a row, and how it is kept from leaving the last page half empty.
-/

namespace TapeMachine.Scroll

/-- Rows inside a border, at least one. -/
def visibleHeight (height : Nat) : Nat :=
  max (height - 2) 1

/-- The offset closest to the old one for which a row is shown. -/
def follow (offset row visible : Nat) : Nat :=
  if row < offset then row
  else if offset + visible ≤ row then row + 1 - visible
  else offset

/-- The old offset, but not so large that the last page is not full. -/
def clamp (offset total visible : Nat) : Nat :=
  min offset (total - visible)

/-- The members from an offset on that are shown. -/
def window {α : Type} (offset visible : Nat) (members : List α) : List α :=
  (members.drop offset).take visible

theorem follow_le_row {offset row visible : Nat} (room : 0 < visible) :
    follow offset row visible ≤ row := by
  unfold follow
  split
  · exact Nat.le_refl _
  · split <;> omega

theorem row_lt_follow_add {offset row visible : Nat} (room : 0 < visible) :
    row < follow offset row visible + visible := by
  unfold follow
  split
  · omega
  · split <;> omega

end TapeMachine.Scroll
