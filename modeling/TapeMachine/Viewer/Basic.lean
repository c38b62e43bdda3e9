import TapeMachine.Snapshot.History
import TapeMachine.Text.Blank

/-!
Contract: watching a run, with a way back in time.

Owns: the state of the viewer, steps forward and backward, what the next step does, and the line
of the next instruction.

The machine always stands at the newest snapshot. A step forward from an older one only moves on
in the history; from the newest one it runs the machine and records a snapshot.
-/

namespace TapeMachine

inductive Focus where
  | source
  | program
  | stack
  | tape
deriving DecidableEq, Repr

namespace Focus

/-- The focus goes around from the tape to the source, the program and the stack. -/
def next : Focus → Focus
  | .tape => .source
  | .source => .program
  | .program => .stack
  | .stack => .tape

def previous : Focus → Focus
  | .tape => .stack
  | .source => .tape
  | .program => .source
  | .stack => .program

theorem previous_next (focus : Focus) : focus.next.previous = focus := by
  cases focus <;> rfl

theorem next_previous (focus : Focus) : focus.previous.next = focus := by
  cases focus <;> rfl

end Focus

structure ScrollOffsets where
  source : Nat
  program : Nat
  stack : Nat
  tape : Nat
deriving DecidableEq, Repr

def ScrollOffsets.update (offsets : ScrollOffsets) (pane : Focus) (change : Nat → Nat) :
    ScrollOffsets :=
  match pane with
  | .source => { offsets with source := change offsets.source }
  | .program => { offsets with program := change offsets.program }
  | .stack => { offsets with stack := change offsets.stack }
  | .tape => { offsets with tape := change offsets.tape }

/-- What the viewer shows and how its steps are limited. -/
structure Watched where
  sourceName : String
  sourceText : List Char
  cursor : CursorId
  /-- The most steps of a jump to the end. -/
  maxSteps : Nat

structure Viewer where
  watched : Watched
  machine : Machine
  tape : Tape
  /-- One snapshot for each step that was taken, the beginning first. -/
  history : History
  position : Nat
  focus : Focus
  scroll : ScrollOffsets
  message : String
  isError : Bool
  playing : Bool
  /-- Whether the space bar may be pressed again. -/
  spaceReady : Bool

inductive StepRefusal where
  | atStart
  | finished
  | historyFull (error : HistoryFull)
deriving DecidableEq, Repr

def StepRefusal.message : StepRefusal → String
  | .atStart => "already at the start"
  | .finished => "execution finished"
  | .historyFull error => error.message

namespace Viewer

/-- The memory that the history may take: 256 megabytes. -/
def historyLimit : Nat :=
  256 * 1024 * 1024

/-- The first snapshot is recorded and shown, and the tape has the focus. -/
def start (watched : Watched) (machine : Machine) (tape : Tape) : Viewer :=
  let snapshot := machine.capture tape watched.cursor
  let empty := History.empty historyLimit
  let refusal := empty.refusal? snapshot
  { watched := watched
    machine := machine
    tape := tape
    history := if refusal.isSome then empty else empty.push snapshot
    position := 0
    focus := .tape
    scroll := ⟨0, 0, 0, 0⟩
    message := (refusal.map HistoryFull.message).getD "Ready!"
    isError := refusal.isSome
    playing := false
    spaceReady := true }

def isFinished (viewer : Viewer) : Bool :=
  !viewer.machine.hasMoreWork

def shown? (viewer : Viewer) : Option Snapshot :=
  viewer.history.get? viewer.position

/-- The source line of the next instruction in the snapshot on screen. -/
def currentLine? (viewer : Viewer) : Option Nat := do
  let snapshot ← viewer.shown?
  let index ← snapshot.index
  viewer.machine.program.sourceLine? snapshot.routine index

/-- Whether newer snapshots than the one on screen are recorded. -/
def canReplay (viewer : Viewer) : Bool :=
  viewer.position + 1 < viewer.history.size

def nextAction (viewer : Viewer) : String :=
  if viewer.canReplay then "replay"
  else if 0 < viewer.machine.pendingCells then "move one cell"
  else
    match viewer.machine.nextInstruction? with
    | some instruction => String.ofList (Text.squeeze instruction.text)
    | none => "nothing"

/-- Runs the machine for one step and records what it looks like then. -/
def runStep (viewer : Viewer) : Except Fault (Viewer × Option StepRefusal) :=
  let cursor := viewer.watched.cursor
  match viewer.machine.step viewer.tape cursor with
  | (.error fault, _) => .error fault
  | (.ok machine, tape) =>
      let snapshot := machine.capture tape cursor
      let stepped := { viewer with machine := machine, tape := tape }
      match stepped.history.refusal? snapshot with
      | some error => .ok ({ stepped with isError := true }, some (.historyFull error))
      | none =>
          .ok ({ stepped with
            history := stepped.history.push snapshot, position := stepped.position + 1 }, none)

/-- One step forward, or the reason why there is none. -/
def stepForward (viewer : Viewer) : Except Fault (Viewer × Option StepRefusal) :=
  if viewer.canReplay then .ok ({ viewer with position := viewer.position + 1 }, none)
  else if viewer.isFinished then .ok (viewer, some .finished)
  else viewer.runStep

/-- Steps forward until a number of steps is taken or one is refused; gives the number of steps. -/
def stepMany : Nat → Viewer → Except Fault (Viewer × Nat)
  | 0, viewer => .ok (viewer, 0)
  | limit + 1, viewer =>
      match viewer.stepForward with
      | .error fault => .error fault
      | .ok (viewer, some _) => .ok (viewer, 0)
      | .ok (viewer, none) =>
          match stepMany limit viewer with
          | .error fault => .error fault
          | .ok (viewer, taken) => .ok (viewer, taken + 1)

/-- One step back in the history, or the reason why there is none. -/
def stepBackward (viewer : Viewer) : Viewer × Option StepRefusal :=
  if viewer.position = 0 then (viewer, some .atStart)
  else ({ viewer with position := viewer.position - 1 }, none)

end Viewer

end TapeMachine
