import TapeMachine.Pane.Border
import TapeMachine.Pane.Highlight
import TapeMachine.Pane.Scroll
import TapeMachine.Text.Decimal
import TapeMachine.Text.Lines

/-!
Contract: the pane with the source text.

Owns: the line numbers, the mark of the current line, and the part of the text that is shown.

The part that is shown follows the current line unless the pane has the focus.
-/

namespace TapeMachine.Pane.Source

/-- The line number, with an arrow behind it on the current line. -/
def gutter (number : Nat) (current : Bool) : Span :=
  let digits := Text.padLeft 4 ' ' (Text.decimal number)
  if current then ⟨digits ++ ['▶'], (Style.inColor Palette.cursor).withBold⟩
  else ⟨digits ++ [' '], .inColor Palette.muted⟩

/-- A line as it is drawn; the current one has a background of its own. -/
def row (number : Nat) (line : List Char) (current : Bool) : Row :=
  let cells := Row.ofSpans (gutter number current :: Highlight.spans line)
  if current then
    cells.map fun cell => { cell with style := cell.style.onto (.onColor Palette.highlight) }
  else cells

/-- The first line that is shown, counted from zero. -/
def offset (lineCount : Nat) (current : Option Nat) (focused : Bool) (old visible : Nat) : Nat :=
  let followed :=
    match current, focused with
    | some line, false => Scroll.follow old (line - 1) visible
    | _, _ => old
  Scroll.clamp followed lineCount visible

/-- Draws the pane and gives the offset that it was drawn with. -/
def draw (screen : Screen) (area : Area) (name : String) (text : List Char)
    (current : Option Nat) (focused : Bool) (old : Nat) : Screen × Nat :=
  let framed := drawFrame screen area (" Source: ".toList ++ name.toList ++ [' ']) focused
  let lines := Text.lines text
  let visible := Scroll.visibleHeight area.height
  let offset := offset lines.length current focused old visible
  let rows := (Scroll.window offset visible lines.zipIdx).map fun entry =>
    row (entry.2 + 1) entry.1 (current = some (entry.2 + 1))
  (framed.drawRows area.inside rows, offset)

end TapeMachine.Pane.Source
