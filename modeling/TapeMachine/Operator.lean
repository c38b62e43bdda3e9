import TapeMachine.Value

/-!
Contract: what operators do to values.

Owns: the binary operators of expressions with their symbols and meaning, and the comparison that
an instruction performs, which is a binary operator or a negation.

The logical operators want truth values and hand back the first operand that is none. The others
take operands of any type: values of different types are unequal and unordered.
-/

namespace TapeMachine

/-- The operators with two operands. Each of them yields a truth value. -/
inductive BinaryOp where
  | equal
  | notEqual
  | less
  | greater
  | lessEq
  | greaterEq
  | and
  | or
deriving DecidableEq, Repr

namespace BinaryOp

def symbol : BinaryOp → String
  | .equal => "="
  | .notEqual => "!="
  | .less => "<"
  | .greater => ">"
  | .lessEq => "<="
  | .greaterEq => ">="
  | .and => "&"
  | .or => "|"

def isLogical : BinaryOp → Bool
  | .and => true
  | .or => true
  | _ => false

end BinaryOp

/-- The truth value of an operand, which is handed back if it is none. -/
def Value.truth (operand : Value) : Except Value Bool :=
  match operand.boolean? with
  | some truth => .ok truth
  | none => .error operand

/-- Combines two truth values; the left operand is looked at first. -/
def Value.combine (combination : Bool → Bool → Bool) (left right : Value) : Except Value Bool :=
  match left.truth with
  | .error operand => .error operand
  | .ok first =>
      match right.truth with
      | .error operand => .error operand
      | .ok second => .ok (combination first second)

/-- The result of an operator, or the operand that it refuses. -/
def BinaryOp.apply (op : BinaryOp) (left right : Value) : Except Value Bool :=
  match op with
  | .equal => .ok (left = right)
  | .notEqual => .ok (left ≠ right)
  | .less => .ok (left.less right)
  | .greater => .ok (right.less left)
  | .lessEq => .ok (left.lessEq right)
  | .greaterEq => .ok (right.lessEq left)
  | .and => Value.combine (· && ·) left right
  | .or => Value.combine (· || ·) left right

inductive Comparison where
  | binary (op : BinaryOp)
  | negation
deriving DecidableEq, Repr

namespace Comparison

def symbol : Comparison → String
  | .binary op => op.symbol
  | .negation => "!"

def arity : Comparison → Nat
  | .binary _ => 2
  | .negation => 1

inductive Refusal where
  /-- An operand that has to be a truth value and is none. -/
  | operand (found : Value)
  /-- The number of operands is not the arity. -/
  | count (comparison : Comparison)
deriving DecidableEq, Repr

/-- The result for operands in the order in which they were pushed. -/
def evaluate : Comparison → List Value → Except Refusal Bool
  | .negation, [operand] =>
      match operand.truth with
      | .ok truth => .ok !truth
      | .error found => .error (.operand found)
  | .binary op, [left, right] =>
      match op.apply left right with
      | .ok truth => .ok truth
      | .error found => .error (.operand found)
  | comparison, _ => .error (.count comparison)

def countMessage (comparison : Comparison) : String :=
  s!"{comparison.symbol} takes {comparison.arity} operand(s)"

end Comparison

end TapeMachine
