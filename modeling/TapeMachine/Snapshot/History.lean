import TapeMachine.Snapshot.View
import TapeMachine.Text.Utf8

/-!
Contract: what a run looks like after each step.

Owns: the snapshot of a machine and its tape, the estimate of the memory that it takes, and the
history of snapshots with a limit on their memory.
-/

namespace TapeMachine

/-- What is shown of a machine and the tape after a step. -/
structure Snapshot where
  view : View
  routine : Routine
  index : Option Nat
  stack : List Value
  pendingCells : Nat
  steps : Nat
deriving DecidableEq, Repr

/-- What a machine and a cursor's view look like now. -/
def Machine.capture (machine : Machine) (tape : Tape) (cursor : CursorId) : Snapshot where
  view := tape.view cursor
  routine := machine.routine
  index := machine.nextIndex?
  stack := machine.stack
  pendingCells := machine.pendingCells
  steps := machine.steps

def byteCount (text : String) : Nat :=
  (Text.Utf8.encode text.toList).length

/-- An estimate of a snapshot's memory in bytes: a fixed part and the name of the label, 28 for
each cell, 9 for each cursor and 16 for each value. -/
def Snapshot.estimatedSize (snapshot : Snapshot) : Nat :=
  let name :=
    match snapshot.routine with
    | .main => 0
    | .label name => byteCount name
  168 + name + 28 * snapshot.view.image.memory.length +
    9 * snapshot.view.image.pointers.length + 16 * snapshot.stack.length

/-- Snapshots in the order in which they were recorded. -/
structure History where
  snapshots : Array Snapshot
  limit : Nat
  usage : Nat

structure HistoryFull where
  usage : Nat
  size : Nat
  limit : Nat
deriving DecidableEq, Repr

def HistoryFull.message (error : HistoryFull) : String :=
  s!"Snapshot memory limit exceeded: {error.usage} + {error.size} > {error.limit}"

namespace History

def empty (limit : Nat) : History :=
  ⟨#[], limit, 0⟩

def size (history : History) : Nat :=
  history.snapshots.size

def isEmpty (history : History) : Bool :=
  history.snapshots.isEmpty

def get? (history : History) (index : Nat) : Option Snapshot :=
  history.snapshots[index]?

def last? (history : History) : Option Snapshot :=
  history.snapshots.back?

/-- The reason why a snapshot does not fit, if it does not. -/
def refusal? (history : History) (snapshot : Snapshot) : Option HistoryFull :=
  if history.limit < history.usage + snapshot.estimatedSize then
    some ⟨history.usage, snapshot.estimatedSize, history.limit⟩
  else none

def push (history : History) (snapshot : Snapshot) : History :=
  { history with
    snapshots := history.snapshots.push snapshot
    usage := history.usage + snapshot.estimatedSize }

end History

end TapeMachine
