import TapeMachine.Names.Table
import TapeMachine.Operator
import TapeMachine.Tape.Basic

/-!
Contract: what a machine executes.

Owns: instructions and their text, the targets of relative jumps, routines, sequences of
instructions with the lines they come from, and executable programs.

A jump by zero or more skips that many instructions behind it; a jump by a negative number resumes
that many instructions before it, which may lie before the first one.
-/

namespace TapeMachine

inductive Instruction where
  | push (value : Value)
  | duplicate
  /-- Replace operands by a truth value. -/
  | compare (comparison : Comparison)
  /-- Push the character under the cursor. -/
  | read
  /-- Pop a character and put it under the cursor. -/
  | write
  /-- Pop a number and walk that many cells, one in each step. -/
  | move (direction : Direction)
  | jump (offset : Int)
  | jumpIf (offset : Int)
  /-- Continue with the body of a label, for good. -/
  | call (label : String)
  | halt
deriving DecidableEq, Repr

/-- Where execution continues after a jump at an index, if that is an index at all. -/
def jumpTarget (index : Nat) (offset : Int) : Option Nat :=
  if 0 ≤ offset then some (index + 1 + offset.toNat)
  else if offset.natAbs ≤ index then some (index - offset.natAbs)
  else none

namespace Instruction

def jumpOffset? : Instruction → Option Int
  | .jump offset => some offset
  | .jumpIf offset => some offset
  | _ => none

/-- The index that a jump at an index leads to. -/
def target? (instruction : Instruction) (index : Nat) : Option Nat :=
  instruction.jumpOffset?.bind (jumpTarget index)

/-- A mnemonic in front of an operand takes twelve columns. -/
def withOperand (mnemonic : String) (operand : List Char) : List Char :=
  Text.padRight 12 ' ' mnemonic.toList ++ operand

def text : Instruction → List Char
  | .push value => withOperand "PUSH" value.text
  | .duplicate => "DUP".toList
  | .compare comparison => withOperand "CMP" comparison.symbol.toList
  | .read => "READ".toList
  | .write => "WRITE".toList
  | .move .left => "MOVE_LEFT".toList
  | .move .right => "MOVE_RIGHT".toList
  | .jump offset => withOperand "JUMP" (Text.signed offset)
  | .jumpIf offset => withOperand "JUMP_IF" (Text.signed offset)
  | .call label => withOperand "CALL" label.toList
  | .halt => "HALT".toList

end Instruction

instance : ToString Instruction := ⟨fun instruction => String.ofList instruction.text⟩

/-- Which sequence of a program is meant. -/
inductive Routine where
  | main
  | label (name : String)
deriving DecidableEq, Repr

def Routine.title : Routine → String
  | .main => "main"
  | .label name => name ++ ":"

instance : ToString Routine := ⟨Routine.title⟩

/-- Instructions and the source line of each. A sequence that does not come from a text has no
lines. -/
structure Sequence where
  instructions : Array Instruction
  lines : Array Nat
deriving DecidableEq, Repr

/-- A program that can be run: its main sequence, and the bodies of its labels, which are looked
up when a call is executed. -/
structure Executable where
  main : Sequence
  labels : NameTable Sequence
deriving Repr

namespace Executable

def sequence? (executable : Executable) : Routine → Option Sequence
  | .main => some executable.main
  | .label name => executable.labels.get? name

def instructions? (executable : Executable) (routine : Routine) : Option (Array Instruction) :=
  (executable.sequence? routine).map Sequence.instructions

def sourceLine? (executable : Executable) (routine : Routine) (index : Nat) : Option Nat :=
  (executable.sequence? routine).bind fun sequence => sequence.lines[index]?

def labelNames (executable : Executable) : List String :=
  executable.labels.names

end Executable

end TapeMachine
