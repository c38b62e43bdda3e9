import TapeMachine.Text.Cluster
import TapeMachine.Text.Columns

/-!
Contract: the look of what is drawn.

Owns: colours, styles and their combination, styled texts, and the palette.

A style leaves open what it does not set; drawn over another one it changes only what it sets.
-/

namespace TapeMachine

inductive Color where
  | black
  | rgb (red green blue : Nat)
deriving DecidableEq, Repr

structure Style where
  foreground : Option Color
  background : Option Color
  bold : Bool
deriving DecidableEq, Repr

namespace Style

def plain : Style :=
  ⟨none, none, false⟩

def inColor (color : Color) : Style :=
  { plain with foreground := some color }

def onColor (color : Color) : Style :=
  { plain with background := some color }

def withBackground (style : Style) (color : Color) : Style :=
  { style with background := some color }

def withBold (style : Style) : Style :=
  { style with bold := true }

/-- A style drawn over another one. -/
def onto (upper lower : Style) : Style where
  foreground := upper.foreground.or lower.foreground
  background := upper.background.or lower.background
  bold := upper.bold || lower.bold

theorem onto_plain (style : Style) : style.onto plain = style := by
  simp [onto, plain]

theorem onto_assoc (first second third : Style) :
    (first.onto second).onto third = first.onto (second.onto third) := by
  simp [onto, Option.or_assoc, Bool.or_assoc]

end Style

structure Span where
  text : List Char
  style : Style
deriving DecidableEq, Repr

namespace Span

/-- The columns of the whole text. Its cells can take more, since letters that share a column are
drawn one by one. -/
def columns (span : Span) : Nat :=
  Text.columns span.text

end Span

/-- A cluster in one style, as it stands at one place of a screen. -/
structure Cell where
  text : List Char
  style : Style
deriving DecidableEq, Repr

namespace Cell

def blank : Cell :=
  ⟨[' '], .plain⟩

def columns (cell : Cell) : Nat :=
  Text.columns cell.text

end Cell

/-- The cells of a text in one style; a line feed is not drawn. -/
def Span.cells (span : Span) : List Cell :=
  ((Text.clusters span.text).filter (· ≠ ['\n'])).map fun cluster => ⟨cluster, span.style⟩

abbrev Row := List Cell

namespace Row

/-- The row that spans make up one after the other. -/
def ofSpans (spans : List Span) : Row :=
  spans.flatMap Span.cells

/-- The cells from the first one on that fit into a width behind a column, each with its column.
The row ends at the first one that does not fit. -/
def fittingFrom (column width : Nat) : Row → List (Nat × Cell)
  | [] => []
  | cell :: others =>
      if width < column + cell.columns then []
      else (column, cell) :: fittingFrom (column + cell.columns) width others

/-- Leaves out the cells that take no column. -/
def visible (row : Row) : Row :=
  row.filter fun cell => 0 < cell.columns

def columns : Row → Nat
  | [] => 0
  | cell :: others => cell.columns + columns others

end Row

abbrev Line := List Span

def Line.columns : Line → Nat
  | [] => 0
  | span :: others => span.columns + columns others

namespace Palette

/-- Plain text, and cells of the tape without a cursor. -/
def text : Color := .rgb 205 214 244
def primary : Color := .rgb 137 180 250
def secondary : Color := .rgb 250 179 135
/-- Line numbers, the ruler of the tape, placeholders, comments. -/
def muted : Color := .rgb 108 112 134
def success : Color := .rgb 166 227 161
def failure : Color := .rgb 243 139 168
def keyword : Color := .rgb 137 180 250
def string : Color := .rgb 250 179 135
def number : Color := .rgb 245 194 231
def label : Color := .rgb 249 226 175
def focusedBorder : Color := .rgb 249 226 175
def border : Color := .rgb 108 112 134
/-- Behind the next instruction, the current line and the observed cell. -/
def highlight : Color := .rgb 50 50 70
def cursor : Color := .rgb 166 227 161
def otherCursor : Color := .rgb 148 226 213

end Palette

end TapeMachine
