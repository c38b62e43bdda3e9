import TapeMachine.Screen.Grid
import TapeMachine.Text.Decimal

/-!
Contract: the status bar.

Owns: the step, the message, the keys, and the indicator of the place in the run.
-/

namespace TapeMachine.Pane

structure Status where
  message : String
  /-- The snapshot on screen, counted from zero. -/
  position : Nat
  /-- Snapshots recorded so far. -/
  recorded : Nat
  /-- Whether the run is over behind the last snapshot. -/
  finished : Bool
  playing : Bool
  isError : Bool
deriving DecidableEq, Repr

namespace Status

/-- The step that is shown; the number of all steps is known only when the run is over. -/
def stepText (status : Status) : List Char :=
  let step := " Step ".toList ++ Text.decimal (status.position + 1) ++ ['/']
  step ++ (if status.finished then Text.decimal status.recorded else ['?']) ++ [' ']

/-- Whether the last snapshot of a run that is over is on screen. -/
def atEnd (status : Status) : Bool :=
  status.finished && status.recorded ≤ status.position + 1

def onBar (color : Color) : Style :=
  (Style.inColor color).withBackground Palette.highlight

def inverse (background : Color) : Style :=
  (Style.inColor .black).withBackground background

def leftSpans (status : Status) : List Span :=
  let stepColor := if status.isError then Palette.failure else Palette.primary
  let messageColor := if status.isError then Palette.failure else Palette.text
  [⟨status.stepText, (inverse stepColor).withBold⟩,
    ⟨" | ".toList, onBar Palette.muted⟩,
    ⟨' ' :: (status.message.toList ++ [' ']), onBar messageColor⟩]

def keys : List (String × String) :=
  [(" ←/→ ", " step "), (" ⎵ ", " play "), (" ↵ / ⌫ ", " end/start "), (" ⇥ ", " focus "),
    (" q ", " quit ")]

def separator : Span :=
  ⟨['│'], onBar Palette.muted⟩

def keySpans : List (String × String) → List Span
  | [] => []
  | (key, action) :: others =>
      let entry : List Span :=
        [⟨key.toList, inverse Palette.muted⟩, ⟨action.toList, onBar Palette.text⟩]
      match others with
      | [] => entry
      | _ :: _ => entry ++ separator :: ⟨[' '], onBar Palette.text⟩ :: keySpans others

/-- The indicator of playing, or of the end or the start of the run. -/
def indicator (status : Status) : Option (String × Color) :=
  if status.playing then some (" ▶ PLAYING ", Palette.secondary)
  else if status.atEnd then some (" END ", Palette.failure)
  else if status.position = 0 then some (" START ", Palette.success)
  else none

def rightSpans (status : Status) : List Span :=
  keySpans keys ++
    match status.indicator with
    | some (text, color) => [separator, ⟨text.toList, (inverse color).withBold⟩]
    | none => []

/-- Draws the bar: step and message on the left, keys and indicator on the right. -/
def draw (screen : Screen) (area : Area) (status : Status) : Screen :=
  let leftWidth := percentOf area.width 45
  let left : Area := ⟨area.x, area.y, leftWidth, area.height⟩
  let right : Area := ⟨area.x + leftWidth, area.y, area.width - leftWidth, area.height⟩
  let painted := screen.paint area (.onColor Palette.highlight)
  (painted.drawRows left [Row.ofSpans status.leftSpans]).drawRight right
    (Row.ofSpans status.rightSpans)

end Status

end TapeMachine.Pane
