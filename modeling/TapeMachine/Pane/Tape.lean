import TapeMachine.Pane.Border
import TapeMachine.Pane.Scroll
import TapeMachine.Snapshot.View

/-!
Contract: the pane with the tape.

Owns: the ruler, the cells and the marks below them, each cell three columns wide, and the part of
the tape that is shown, which follows the cursor that is watched.
-/

namespace TapeMachine.Pane.Tape

inductive Mark where
  | none
  | observed
  | other (id : CursorId)
deriving DecidableEq, Repr

def cursorsAt (view : View) (cell : Nat) : List CursorId :=
  ((view.image.pointers.zip view.image.alive).zipIdx.filter fun entry =>
    entry.1.2 && entry.1.1 = cell).map Prod.snd

/-- The cursor that is watched goes before all others, and of those the first one is shown. -/
def markAt (view : View) (cell : Nat) : Mark :=
  match cursorsAt view cell with
  | [] => .none
  | first :: others =>
      if view.identifier ∈ first :: others then .observed else .other first

/-- Cells that fit next to each other, at least one. -/
def columns (width : Nat) : Nat :=
  max ((width - 2) / 3) 1

def shownCells (offset width cellCount : Nat) : List Nat :=
  let start := min offset (cellCount - 1)
  List.range' start (min (start + columns width) cellCount - start)

def rulerSpan (cell : Nat) : Span :=
  ⟨Text.padLeft 3 ' ' (Text.decimal (cell % 1000)), .inColor Palette.muted⟩

def cellSpan (content : String) (mark : Mark) : Span :=
  let style : Style :=
    match mark with
    | .observed =>
        ((Style.inColor Palette.cursor).withBackground Palette.highlight).withBold
    | .other _ => .inColor Palette.otherCursor
    | .none => .inColor Palette.text
  ⟨' ' :: (content.toList ++ [' ']), style⟩

def markSpan : Mark → Span
  | .observed => ⟨" ▲ ".toList, (Style.inColor Palette.cursor).withBold⟩
  | .other id => ⟨" △".toList ++ Text.decimal (id % 10), .inColor Palette.otherCursor⟩
  | .none => ⟨"   ".toList, .plain⟩

/-- Draws the pane and gives the offset that it was drawn with. -/
def draw (screen : Screen) (area : Area) (view : View) (focused : Bool) (old : Nat) :
    Screen × Nat :=
  let position := view.position?.getD 0
  let cellCount := view.image.memory.length
  let title :=
    s!" Tape: cursor {view.identifier} at {position} of {cellCount} cells "
  let framed := drawFrame screen area title.toList focused
  let offset := Scroll.follow old position (columns area.width)
  let shown := shownCells offset area.width cellCount
  let rows : List Row :=
    [Row.ofSpans (shown.map rulerSpan),
      Row.ofSpans (shown.map fun cell =>
        cellSpan (view.image.memory[cell]?.getD "") (markAt view cell)),
      Row.ofSpans (shown.map fun cell => markSpan (markAt view cell))]
  (framed.drawRows area.inside rows, offset)

end TapeMachine.Pane.Tape
