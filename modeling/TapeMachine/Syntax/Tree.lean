import TapeMachine.Operator
import TapeMachine.Tape.Basic

/-!
Contract: the tree of a program.

Owns: expressions with their lines and their type, statements, blocks, label definitions and whole
programs, and the text of an expression.

The type of an expression follows from its shape; that operands have the types their operator
needs is a matter of the grammar, which builds nothing else.
-/

namespace TapeMachine

/-- An expression; every node knows the line of its leading token. -/
inductive Expression where
  | binary (op : BinaryOp) (left right : Expression) (line : Nat)
  | negation (operand : Expression) (line : Nat)
  | nested (inner : Expression) (line : Nat)
  | read (line : Nat)
  | literal (value : Value) (line : Nat)
deriving DecidableEq, Repr

namespace Expression

def type : Expression → ValueType
  | .binary .. => .boolean
  | .negation .. => .boolean
  | .nested inner _ => inner.type
  | .read _ => .character
  | .literal value _ => value.type

def line : Expression → Nat
  | .binary _ _ _ line => line
  | .negation _ line => line
  | .nested _ line => line
  | .read line => line
  | .literal _ line => line

/-- The expression as it is shown: operators stand before their operands. -/
def text : Expression → List Char
  | .binary op left right _ => op.symbol.toList ++ ' ' :: (left.text ++ ' ' :: right.text)
  | .negation operand _ => '!' :: operand.text
  | .nested inner _ => '(' :: (inner.text ++ [')'])
  | .read _ => "read".toList
  | .literal value _ => value.text

end Expression

mutual

inductive Statement where
  | empty (line : Nat)
  | move (direction : Direction) (distance : Expression) (line : Nat)
  | write (value : Expression) (line : Nat)
  | goto (label : String) (line : Nat)
  | ifThen (condition : Expression) (body : Block) (line : Nat)
  | ifElse (condition : Expression) (thenBody elseBody : Block) (line : Nat)
  | whileLoop (condition : Expression) (body : Block) (line : Nat)
  | halt (line : Nat)

/-- Statements between braces; the line is that of the opening brace. -/
inductive Block where
  | mk (statements : List Statement) (line : Nat)

end

deriving instance Repr for Statement, Block

instance : Inhabited Block := ⟨.mk [] 0⟩

def Block.statements : Block → List Statement
  | .mk statements _ => statements

def Block.line : Block → Nat
  | .mk _ line => line

def Statement.line : Statement → Nat
  | .empty line => line
  | .move _ _ line => line
  | .write _ line => line
  | .goto _ line => line
  | .ifThen _ _ line => line
  | .ifElse _ _ _ line => line
  | .whileLoop _ _ line => line
  | .halt line => line

structure LabelDefinition where
  name : String
  body : Block
  line : Nat
deriving Repr

inductive Item where
  | statement (entry : Statement)
  | label (definition : LabelDefinition)
deriving Repr

structure Program where
  items : List Item
deriving Repr

/-- The label definitions of a program in the order of the text, repeated names included. -/
def Program.labels (program : Program) : List LabelDefinition :=
  program.items.filterMap fun item =>
    match item with
    | .label definition => some definition
    | .statement _ => none

end TapeMachine
