import TapeMachine.Screen.Style
import TapeMachine.Text.Lines

/-!
Contract: a character screen.

Owns: the grid of places, drawing into areas of it, boxes with titles, and the division of an area
at percentages.

Drawing outside the grid or the area has no effect. What is drawn changes the style of a place by
what it sets and leaves the rest.

A cell of several columns stands at the first of them and covers the others. A row is drawn cell by
cell and leaves the places that it covers as they were; a line is drawn span by span, each span
behind the columns of those before it, and clears what it covers.
-/

namespace TapeMachine

structure Area where
  x : Nat
  y : Nat
  width : Nat
  height : Nat
deriving DecidableEq, Repr

/-- The area within a border of one place. -/
def Area.inside (area : Area) : Area where
  x := area.x + 1
  y := area.y + 1
  width := area.width - 2
  height := area.height - 2

/-- A percentage of a length, a half rounded up. -/
def percentOf (length percent : Nat) : Nat :=
  (length * percent + 50) / 100

structure Screen where
  width : Nat
  height : Nat
  cells : Array Cell
deriving DecidableEq, Repr

namespace Screen

def blank (width height : Nat) : Screen where
  width := width
  height := height
  cells := Array.replicate (width * height) .blank

def area (screen : Screen) : Area :=
  ⟨0, 0, screen.width, screen.height⟩

def change (screen : Screen) (x y : Nat) (update : Cell → Cell) : Screen :=
  if x < screen.width ∧ y < screen.height then
    { screen with cells := screen.cells.modify (y * screen.width + x) update }
  else screen

/-- Draws a cell at its first place. -/
def draw (screen : Screen) (x y : Nat) (cell : Cell) : Screen :=
  screen.change x y fun old => ⟨cell.text, cell.style.onto old.style⟩

/-- Draws a cell and clears the places behind the first that it covers. -/
def drawAlone (screen : Screen) (x y : Nat) (cell : Cell) : Screen :=
  (List.range' (x + 1) (cell.columns - 1)).foldl
    (fun screen covered => screen.change covered y fun _ => .blank) (screen.draw x y cell)

def paint (screen : Screen) (area : Area) (style : Style) : Screen :=
  (List.range area.height).foldl
    (fun screen row =>
      (List.range area.width).foldl
        (fun screen column =>
          screen.change (area.x + column) (area.y + row) fun old =>
            { old with style := style.onto old.style })
        screen)
    screen

/-- The cells of a row that are shown in a width, each with its column. A cell that is wider than
that is passed over. -/
def shownCells (width : Nat) (row : Row) : List (Nat × Cell) :=
  Row.fittingFrom 0 width (row.visible.filter fun cell => cell.columns ≤ width)

def drawCells (screen : Screen) (x y : Nat) (cells : List (Nat × Cell)) : Screen :=
  cells.foldl (fun screen entry => screen.draw (x + entry.1) y entry.2) screen

def drawRows (screen : Screen) (area : Area) (rows : List Row) : Screen :=
  ((rows.take area.height).zipIdx).foldl
    (fun screen entry =>
      screen.drawCells area.x (area.y + entry.2) (shownCells area.width entry.1))
    screen

/-- Draws a row that ends at the right edge of an area; a row that is too long is cut on the
right. -/
def drawRight (screen : Screen) (area : Area) (row : Row) : Screen :=
  if area.height = 0 then screen
  else
    let shown := shownCells area.width row
    screen.drawCells (area.x + (area.width - Row.columns (shown.map Prod.snd))) area.y shown

/-- Draws spans from a column behind a place on, cut to a width. -/
def drawSpansFrom (screen : Screen) (x y width column : Nat) : Line → Screen
  | [] => screen
  | span :: others =>
      let drawn :=
        (Row.fittingFrom column width (Row.visible span.cells)).foldl
          (fun screen entry => screen.drawAlone (x + entry.1) y entry.2) screen
      drawn.drawSpansFrom x y width (column + span.columns) others

def drawLine (screen : Screen) (x y width : Nat) (line : Line) : Screen :=
  screen.drawSpansFrom x y width 0 line

def drawLines (screen : Screen) (area : Area) (lines : List Line) : Screen :=
  ((lines.take area.height).zipIdx).foldl
    (fun screen entry => screen.drawLine area.x (area.y + entry.2) area.width entry.1) screen

/-- The glyph of a border at a place: corners first, those on the left and on top foremost. -/
def borderGlyph (area : Area) (column row : Nat) : Option Char :=
  let right := column + 1 = area.width
  let bottom := row + 1 = area.height
  if column = 0 ∧ row = 0 then some '┌'
  else if column = 0 ∧ bottom then some '└'
  else if right ∧ row = 0 then some '┐'
  else if right ∧ bottom then some '┘'
  else if row = 0 ∨ bottom then some '─'
  else if column = 0 ∨ right then some '│'
  else none

/-- A title as a line: the rows of its text one behind the other. -/
def titleLine (title : List Char) : Line :=
  (Text.lines title).map fun row => ⟨row, .plain⟩

/-- Draws a border around an area with a title in its upper edge, all in one style. -/
def drawBox (screen : Screen) (area : Area) (title : List Char) (style : Style) : Screen :=
  let bordered :=
    (List.range area.height).foldl
      (fun screen row =>
        (List.range area.width).foldl
          (fun screen column =>
            match borderGlyph area column row with
            | some glyph => screen.draw (area.x + column) (area.y + row) ⟨[glyph], style⟩
            | none => screen)
          screen)
      screen
  if area.height = 0 then bordered
  else
    let line := titleLine title
    let width := min line.columns (area.width - 2)
    bordered.drawLine (area.x + 1) area.y width line

/-- What is seen of cells next to each other: the place behind a cell of several columns is
covered and shows nothing. -/
def seenCells (covered : Bool) : List Cell → List Cell
  | [] => []
  | cell :: others => (if covered then .blank else cell) :: seenCells (1 < cell.columns) others

def rowCells (screen : Screen) (row : Nat) : List Cell :=
  seenCells false
    (screen.cells.extract (row * screen.width) ((row + 1) * screen.width)).toList

def texts (screen : Screen) : List (List Char) :=
  (List.range screen.height).map fun row => (screen.rowCells row).flatMap Cell.text

/-- A run of neighbouring places with one style. -/
structure StyleRun where
  start : Nat
  length : Nat
  style : Style
deriving DecidableEq, Repr

/-- The maximal runs of one style from a column on. -/
def styleRunsFrom (column : Nat) : List Cell → List StyleRun
  | [] => []
  | cell :: others =>
      match styleRunsFrom (column + 1) others with
      | [] => [⟨column, 1, cell.style⟩]
      | run :: runs =>
          if run.style = cell.style then ⟨column, run.length + 1, cell.style⟩ :: runs
          else ⟨column, 1, cell.style⟩ :: run :: runs

/-- The runs of each row that have a style at all. -/
def styleRuns (screen : Screen) : List (List StyleRun) :=
  (List.range screen.height).map fun row =>
    (styleRunsFrom 0 (screen.rowCells row)).filter fun run => run.style ≠ .plain

end Screen

end TapeMachine
