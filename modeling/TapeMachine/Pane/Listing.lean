import TapeMachine.Code.Listing
import TapeMachine.Pane.Border
import TapeMachine.Pane.Scroll
import TapeMachine.Screen.Items

/-!
Contract: the pane with the instructions of the running sequence.

Owns: the mark of the next instruction, the part of the listing that is shown, and what is shown
when the run is over.
-/

namespace TapeMachine.Pane.Listing

/-- The item of one line of the listing; the next instruction has an arrow and stands out. -/
def item (line : List Char) (next : Bool) : ListItem :=
  let style : Style :=
    if next then
      ((Style.inColor Palette.secondary).withBackground Palette.highlight).withBold
    else .inColor Palette.text
  .ofText style ((if next then '→' else ' ') :: line)

/-- Draws the pane and gives the offset that it was drawn with. -/
def draw (screen : Screen) (area : Area) (routine : Routine) (instructions : List Instruction)
    (next : Option Nat) (focused : Bool) (old : Nat) : Screen × Nat :=
  let title := " Program: ".toList ++ routine.title.toList ++ [' ']
  match next, instructions with
  | some index, _ :: _ =>
      let framed := drawFrame screen area title focused
      let visible := Scroll.visibleHeight area.height
      let offset := Scroll.follow old index visible
      let items := (Scroll.window offset visible (listing instructions).zipIdx).map fun entry =>
        item entry.1 (entry.2 = index)
      (framed.drawItems area.inside 0 items, offset)
  | _, _ =>
      let style := Style.inColor Palette.muted
      let framed := drawFrame (screen.paint area style) area title focused
      (framed.drawRows area.inside [Span.cells ⟨"(finished)".toList, style⟩], old)

end TapeMachine.Pane.Listing
