import TapeMachine.Code.Instruction

/-!
Contract: instructions as text.

Owns: the listing of a sequence, one line for each instruction, and the listing of a whole program.

A line shows the index, a mark if some jump of the sequence leads there, the instruction, and
behind a jump the index that it leads to.
-/

namespace TapeMachine

def jumpTargets (instructions : List Instruction) : List Nat :=
  instructions.zipIdx.filterMap fun entry => entry.1.target? entry.2

/-- An index takes at least four digits. -/
def indexText (index : Nat) : List Char :=
  Text.padLeft 4 '0' (Text.decimal index)

def listingLine (marked : Bool) (index : Nat) (instruction : Instruction) : List Char :=
  indexText index ++ ' ' :: (if marked then "► ".toList else "  ".toList) ++
    match instruction.target? index with
    | some target =>
        Text.padRight 20 ' ' instruction.text ++ " ; -> ".toList ++ indexText target
    | none => instruction.text

def listing (instructions : List Instruction) : List (List Char) :=
  let targets := jumpTargets instructions
  instructions.zipIdx.map fun entry => listingLine (targets.contains entry.2) entry.2 entry.1

def rule : List Char :=
  List.replicate 40 '═'

/-- The lines of one routine: a title with the number of instructions, the listing, and an empty
line. -/
def routineLines (routine : Routine) (instructions : List Instruction) : List (List Char) :=
  [rule, ' ' :: routine.title.toList,
    ' ' :: Text.decimal instructions.length ++ " instructions".toList, rule] ++
    listing instructions ++ [[]]

namespace Executable

/-- The lines of a whole program: the main sequence, then the labels by name. -/
def disassembly (executable : Executable) : List (List Char) :=
  routineLines .main executable.main.instructions.toList ++
    executable.labelNames.flatMap fun name =>
      match executable.labels.get? name with
      | some body => routineLines (.label name) body.instructions.toList
      | none => []

/-- The listing of a whole program as one text. A line of it that shows a line feed takes more than
one row of the text. -/
def disassemblyText (executable : Executable) : List Char :=
  executable.disassembly.flatMap fun line => line ++ ['\n']

end Executable

end TapeMachine
