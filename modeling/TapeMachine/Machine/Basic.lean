import TapeMachine.Code.Instruction

/-!
Contract: the state of a machine that runs a program.

Owns: the state, its beginning and end, what it shows, and the faults that stop it.

A machine runs once. When its sequence is used up or it halts, nothing of the run is kept but the
count of steps, the routine that ran last and whether it halted.
-/

namespace TapeMachine

inductive Fault where
  | underflow (instruction : Instruction) (index : Nat)
  | confusion (instruction : Instruction) (expected found : ValueType)
  | unknownLabel (name : String)
  /-- A jump to before the first instruction. -/
  | jumpOutOfRange (index : Nat) (offset : Int)
  | cursor (error : TapeError)
deriving DecidableEq, Repr

def Fault.message : Fault → String
  | .underflow instruction index => s!"Stack underflow executing '{instruction}' at {index}"
  | .confusion instruction expected found =>
      s!"'{instruction}' expected a {expected} operand but found a {found}"
  | .unknownLabel name => s!"Call to unknown label '{name}'"
  | .jumpOutOfRange index offset =>
      s!"Jump {String.ofList (Text.signed offset)} at {index} leaves the instruction sequence"
  | .cursor error => s!"Cursor fault: {error.message}"

/-- What is left of a move that has begun. -/
structure Walk where
  direction : Direction
  /-- Cells left to walk, at least one. -/
  remaining : Nat
deriving DecidableEq, Repr

structure Machine where
  program : Executable
  /-- The instructions that are being executed, none when the run is over. -/
  active : Option (Array Instruction)
  routine : Routine
  index : Nat
  stack : List Value
  walk : Option Walk
  steps : Nat
  /-- Whether the run has ended at a halt instruction. -/
  halted : Bool

namespace Machine

/-- Ends the run and drops everything that is pending. -/
def finish (machine : Machine) : Machine :=
  { machine with active := none, stack := [], walk := none, index := 0 }

/-- Ends the run if nothing is left: no move in progress and no instruction at the index. -/
def settle (machine : Machine) : Machine :=
  if machine.walk.isSome then machine
  else
    match machine.active with
    | none => machine.finish
    | some instructions =>
        if instructions.size ≤ machine.index then machine.finish else machine

def start (program : Executable) : Machine :=
  settle
    { program := program
      active := some program.main.instructions
      routine := .main
      index := 0
      stack := []
      walk := none
      steps := 0
      halted := false }

/-- Whether an instruction or a part of a move is left. -/
def hasMoreWork (machine : Machine) : Bool :=
  machine.walk.isSome || machine.active.isSome

def nextIndex? (machine : Machine) : Option Nat :=
  machine.active.map fun _ => machine.index

def instructions (machine : Machine) : Array Instruction :=
  machine.active.getD #[]

def nextInstruction? (machine : Machine) : Option Instruction :=
  machine.instructions[machine.index]?

def pendingCells (machine : Machine) : Nat :=
  (machine.walk.map Walk.remaining).getD 0

end Machine

end TapeMachine
