import TapeMachine.Tape.Basic

/-!
Contract: the operations of a tape as a program carries them out, with machine words for counts and
positions.

Owns: the sum of two words, what a program does where it does not fit, and the operations that add
up positions or use them as indices. `none` stands for a program that has stopped.

Does not own: the operations on numbers without bound, which these ones agree with as long as every
sum fits; `Tape.Basic` does. How much memory there is for cells is not considered here.
-/

namespace TapeMachine

/-- What becomes of a sum of words that is no word: a program that checks its sums stops, and one
that does not goes on with the remainder. -/
inductive Arithmetic where
  | checked
  | wrapping
deriving DecidableEq, Repr

namespace Tape

/-- Cuts off or appends cells, so that there are as many of them as asked for. -/
def resize (tape : Tape) (size : Nat) : Tape :=
  { tape with
    cells := tape.cells.take size ++ Array.replicate (size - tape.cells.size) tape.fill }

/-- Lets a cursor be used, unless its use is refused. -/
def permit {α : Type} (tape : Tape) (id : CursorId) (outcome : Option α) :
    ExceptT TapeError Option α :=
  match tape.refusal? id with
  | some error => throw error
  | none => liftM outcome

/-- The character of the cell under a cursor. A program stops at an index without a cell. -/
def readCell (tape : Tape) (id : CursorId) : ExceptT TapeError Option Char :=
  tape.permit id tape.cells[tape.slotPosition id]?

/-- Replaces the character of the cell under a cursor. -/
def writeCell (tape : Tape) (id : CursorId) (glyph : Char) : ExceptT TapeError Option Tape :=
  tape.permit id (if tape.slotPosition id < tape.cells.size then some (tape.put id glyph) else none)

end Tape

namespace Arithmetic

/-- Whether a program goes on behind the sum of two words. -/
def allows (arithmetic : Arithmetic) (first second : Nat) : Bool :=
  arithmetic = .wrapping || decide (first + second < UInt64.size)

def sum (first second : Nat) : Nat :=
  (first + second) % UInt64.size

def add? (arithmetic : Arithmetic) (first second : Nat) : Option Nat :=
  if arithmetic.allows first second then some (sum first second) else none

/-- Makes as many cells as it takes for an index to be the last, unless there are more already. -/
def reach (arithmetic : Arithmetic) (tape : Tape) (index : Nat) : Option Tape :=
  if index < tape.cells.size then some tape else (arithmetic.add? index 1).map tape.resize

/-- Prepends fill cells and keeps every cursor on its cell. -/
def growLeft (arithmetic : Arithmetic) (tape : Tape) (count : Nat) : Option Tape :=
  if tape.slots.all fun slot => arithmetic.allows slot.position count then
    some { tape with
      cells := Array.replicate count tape.fill ++ tape.cells
      slots := tape.slots.map fun slot => { slot with position := sum slot.position count } }
  else none

/-- Walks a cursor, alive or not, and grows the tape to reach the cell it ends on. -/
def walk (arithmetic : Arithmetic) (tape : Tape) (id : CursorId) (count : Nat) :
    Direction → Option Tape
  | .right => do
      let target ← arithmetic.add? (tape.slotPosition id) count
      (arithmetic.reach tape target).map fun reached => reached.place id target
  | .left =>
      let position := tape.slotPosition id
      if count ≤ position then some (tape.place id (position - count))
      else (arithmetic.growLeft tape (count - position)).map fun grown => grown.place id 0

/-- Registers a cursor on the left edge and walks it from there, unless it starts there. -/
def register (arithmetic : Arithmetic) (tape : Tape) (start : Int) : Option (Tape × CursorId) :=
  let id := tape.slots.size
  let added := { tape with slots := tape.slots.push ⟨0, true⟩ }
  let walked :=
    if start = 0 then some added
    else arithmetic.walk added id start.natAbs (if start < 0 then .left else .right)
  walked.map fun tape => (tape, id)

def move (arithmetic : Arithmetic) (tape : Tape) (id : CursorId) (count : Nat)
    (direction : Direction) : ExceptT TapeError Option Tape :=
  tape.permit id (arithmetic.walk tape id count direction)

/-- Rebuilds the cells from the initial text and one fill cell. The cursors either go back to the
left edge, or stay and have the furthest of them reached again. -/
def reset (arithmetic : Arithmetic) (tape : Tape) (resetCursors : Bool) : Option Tape :=
  let rebuilt := { tape with cells := (tape.initial ++ [tape.fill]).toArray }
  if resetCursors then
    some { rebuilt with slots := rebuilt.slots.map fun slot => { slot with position := 0 } }
  else
    arithmetic.reach rebuilt
      (rebuilt.slots.foldl (fun furthest slot => max furthest slot.position) 0)

def load (arithmetic : Arithmetic) (tape : Tape) (initial : List Char) : Option Tape :=
  arithmetic.reset { tape with initial := initial } false

end Arithmetic

end TapeMachine
