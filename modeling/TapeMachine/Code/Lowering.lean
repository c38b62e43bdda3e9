import TapeMachine.Code.Instruction
import TapeMachine.Grammar.Program

/-!
Contract: instructions for a program's tree.

Owns: the code of expressions, statements and blocks with the line of each instruction, and the
executable of a whole program.

The layouts of branching statements, where `n` counts the instructions of a part:

    if          condition  NOT  JUMP_IF n(then)  then
    if/else     condition  DUP  NOT  JUMP_IF n(then)  then  JUMP_IF n(else)  else
    while       condition  NOT  JUMP_IF n(body)+1  body  JUMP to the condition

With an else branch, the first copy of the condition's value stays on the stack until the second
jump pops it: behind the then branch it is true and leads past the else branch, and when the then
branch was skipped it is false and falls through into the else branch.
-/

namespace TapeMachine

structure Placed where
  instruction : Instruction
  line : Nat
deriving DecidableEq, Repr

abbrev Code := List Placed

namespace Expression

/-- Instructions that leave the value of the expression on top of the stack. -/
def code : Expression → Code
  | .binary op left right line => left.code ++ right.code ++ [⟨.compare (.binary op), line⟩]
  | .negation operand line => operand.code ++ [⟨.compare .negation, line⟩]
  | .nested inner _ => inner.code
  | .read line => [⟨.read, line⟩]
  | .literal value line => [⟨.push value, line⟩]

end Expression

mutual

def Statement.code : Statement → Code
  | .empty _ => []
  | .move direction distance line => distance.code ++ [⟨.move direction, line⟩]
  | .write value line => value.code ++ [⟨.write, line⟩]
  | .goto label line => [⟨.call label, line⟩]
  | .ifThen condition body line =>
      let body := body.code
      condition.code ++
        [⟨.compare .negation, line⟩, ⟨.jumpIf body.length, line⟩] ++ body
  | .ifElse condition thenBody elseBody line =>
      let thenCode := thenBody.code
      let elseCode := elseBody.code
      condition.code ++
        [⟨.duplicate, line⟩, ⟨.compare .negation, line⟩, ⟨.jumpIf thenCode.length, line⟩] ++
        thenCode ++ [⟨.jumpIf elseCode.length, elseBody.line⟩] ++ elseCode
  | .whileLoop condition body line =>
      let test := condition.code
      let body := body.code
      test ++ [⟨.compare .negation, line⟩, ⟨.jumpIf (body.length + 1), line⟩] ++ body ++
        [⟨.jump (-(body.length + 2 + test.length : Nat)), line⟩]
  | .halt line => [⟨.halt, line⟩]

def Block.code : Block → Code
  | .mk statements _ => Statement.codeOf statements

def Statement.codeOf : List Statement → Code
  | [] => []
  | first :: others => first.code ++ Statement.codeOf others

end

def Sequence.ofCode (code : Code) : Sequence where
  instructions := (code.map Placed.instruction).toArray
  lines := (code.map Placed.line).toArray

namespace Item

/-- What an item adds to the main sequence: label definitions add nothing. -/
def mainCode : Item → Code
  | .statement entry => entry.code
  | .label _ => []

end Item

namespace Program

/-- The main sequence is made of the statements of the top level, in order. A label defined more
than once has its last body. -/
def executable (program : Program) : Executable where
  main := .ofCode (program.items.flatMap Item.mainCode)
  labels := .ofList (program.labels.map fun definition =>
    (definition.name, .ofCode definition.body.code))

end Program

def Buffer.compile (buffer : Buffer) : Except ParseError Executable :=
  match buffer.parse with
  | (.ok program, _) => .ok program.executable
  | (.error error, _) => .error error

end TapeMachine
