/-!
Contract: a row of single-character cells that grows both ways under any number of cursors.

Owns: the cells, one slot per cursor ever registered, growth on either side, and the errors for a
cursor that was never registered or is no longer alive.

Slots are never reclaimed, so the number of a cursor names it for the life of the tape. Growth on
the left pushes every stored position along, those of dead cursors included, so every cursor stays
on the cell it was on.

Numbers are without bound here. A machine moves a cursor by single cells, and no sum of such a move
overflows as long as a word can count the cells that it leads to. Clients move cursors by any word,
with the operations of `Tape.Arithmetic`.
-/

namespace TapeMachine

inductive Direction where
  | left
  | right
deriving DecidableEq, Repr

def Direction.opposite : Direction → Direction
  | .left => .right
  | .right => .left

/-- A cursor is named by its place in the order of registration. -/
abbrev CursorId := Nat

/-- What a tape keeps of a cursor: the index of its cell, and whether it may still be used. -/
structure Slot where
  position : Nat
  alive : Bool
deriving DecidableEq, Repr

inductive TapeError where
  | unknownCursor (id : CursorId)
  | deadCursor (id : CursorId)
deriving DecidableEq, Repr

def TapeError.message : TapeError → String
  | .unknownCursor id => s!"Cursor {id} was never registered"
  | .deadCursor id => s!"Cursor {id} has been unregistered"

def defaultFill : Char := '_'

structure Tape where
  cells : Array Char
  slots : Array Slot
  /-- What a cell holds when growth creates it. -/
  fill : Char
  /-- The text that a reset goes back to. -/
  initial : List Char
deriving DecidableEq, Repr

namespace Tape

def blank (fill : Char) : Tape where
  cells := #[fill]
  slots := #[]
  fill := fill
  initial := []

/-- The position stored for a cursor, dead or alive; `0` for one that was never registered. -/
def slotPosition (tape : Tape) (id : CursorId) : Nat :=
  (tape.slots[id]?.map Slot.position).getD 0

def isAlive (tape : Tape) (id : CursorId) : Bool :=
  (tape.slots[id]?.map Slot.alive).getD false

/-- The error that use of a cursor meets, if any. -/
def refusal? (tape : Tape) (id : CursorId) : Option TapeError :=
  match tape.slots[id]? with
  | none => some (.unknownCursor id)
  | some slot => if slot.alive then none else some (.deadCursor id)

/-- Appends fill cells up to a number of cells. -/
def growTo (tape : Tape) (size : Nat) : Tape :=
  if tape.cells.size < size then
    { tape with cells := tape.cells ++ Array.replicate (size - tape.cells.size) tape.fill }
  else tape

/-- Prepends fill cells and keeps every cursor on its cell. -/
def growLeft (tape : Tape) (count : Nat) : Tape :=
  { tape with
    cells := Array.replicate count tape.fill ++ tape.cells
    slots := tape.slots.map fun slot => { slot with position := slot.position + count } }

def place (tape : Tape) (id : CursorId) (position : Nat) : Tape :=
  { tape with slots := tape.slots.modify id fun slot => { slot with position := position } }

/-- Walks a cursor, alive or not, and grows the tape to reach the cell it ends on, however far
that is. -/
def walk (tape : Tape) (id : CursorId) (count : Nat) : Direction → Tape
  | .right =>
      let target := tape.slotPosition id + count
      (tape.growTo (target + 1)).place id target
  | .left =>
      let position := tape.slotPosition id
      if count ≤ position then tape.place id (position - count)
      else (tape.growLeft (count - position)).place id 0

/-- Registers a cursor on the left edge and walks it from there: to the right for a positive
start, to the left for a negative one. -/
def register (tape : Tape) (start : Int) : Tape × CursorId :=
  let id := tape.slots.size
  let added := { tape with slots := tape.slots.push ⟨0, true⟩ }
  (added.walk id start.natAbs (if start < 0 then .left else .right), id)

/-- Marks a cursor dead. Its slot stays, and a cursor that was never registered is ignored. -/
def unregister (tape : Tape) (id : CursorId) : Tape :=
  { tape with slots := tape.slots.modify id fun slot => { slot with alive := false } }

def move (tape : Tape) (id : CursorId) (count : Nat) (direction : Direction) :
    Except TapeError Tape :=
  match tape.refusal? id with
  | some error => .error error
  | none => .ok (tape.walk id count direction)

def position (tape : Tape) (id : CursorId) : Except TapeError Nat :=
  match tape.refusal? id with
  | some error => .error error
  | none => .ok (tape.slotPosition id)

def read (tape : Tape) (id : CursorId) : Except TapeError Char :=
  match tape.refusal? id with
  | some error => .error error
  | none => .ok (tape.cells[tape.slotPosition id]?.getD tape.fill)

/-- Puts a character under a cursor, alive or not. -/
def put (tape : Tape) (id : CursorId) (glyph : Char) : Tape :=
  let position := tape.slotPosition id
  { tape with cells := tape.cells.setIfInBounds position glyph }

def write (tape : Tape) (id : CursorId) (glyph : Char) : Except TapeError Tape :=
  match tape.refusal? id with
  | some error => .error error
  | none => .ok (tape.put id glyph)

/-- Rebuilds the cells from the initial text and one fill cell. The cursors either go back to the
left edge, or stay and have the tape padded until each of them is on it. -/
def reset (tape : Tape) (resetCursors : Bool) : Tape :=
  let rebuilt := { tape with cells := (tape.initial ++ [tape.fill]).toArray }
  if resetCursors then
    { rebuilt with slots := rebuilt.slots.map fun slot => { slot with position := 0 } }
  else
    rebuilt.growTo (rebuilt.slots.foldl (fun furthest slot => max furthest slot.position) 0 + 1)

/-- Chooses the initial text and resets the cells to it; the cursors stay where they are. -/
def load (tape : Tape) (initial : List Char) : Tape :=
  reset { tape with initial := initial } false

/-- A fresh tape that holds a text and one fill cell. -/
def ofText (initial : List Char) (fill : Char) : Tape :=
  (blank fill).load initial

def text (tape : Tape) : List Char :=
  tape.cells.toList

/-- The row of marks above the cells: a `v` over each cell with a living cursor, ending with the
last of them. -/
def marks (tape : Tape) : List Char :=
  let marked (index : Nat) : Char :=
    if tape.slots.any fun slot => slot.alive && slot.position == index then 'v' else ' '
  (((List.range tape.cells.size).map marked).reverse.dropWhile (· = ' ')).reverse

def picture (tape : Tape) : List Char :=
  tape.marks ++ '\n' :: tape.text

end Tape

end TapeMachine
