import TapeMachine.Grammar.Production

/-!
Contract: the grammar of expressions.

Owns: the five productions of an expression, their typing, and the values of literals.

Operators stand before their operands, so no precedence is involved:

    expression = '!' expression | operator expression expression | '(' expression ')'
               | 'read' | '^' | character | integer | 'true' | 'false'
-/

namespace TapeMachine.Grammar

def binaryOperator : Kind → Option BinaryOp
  | .symbol .equal => some .equal
  | .keyword .notEqual => some .notEqual
  | .symbol .less => some .less
  | .symbol .greater => some .greater
  | .keyword .lessEqual => some .lessEq
  | .keyword .greaterEqual => some .greaterEq
  | .symbol .ampersand => some .and
  | .symbol .bar => some .or
  | _ => none

def negation (operand : Parse (Option Expression)) : Parse (Option Expression) :=
  production (only (.symbol .bang)) fun sign _ => do
    let operand ← require operand sign .operand
    checkType operand.type .boolean sign (.negated operand.type)
    return .negation operand sign.line

/-- Both operands have one type, and it is the boolean one for a logical operator. -/
def binary (operand : Parse (Option Expression)) : Parse (Option Expression) :=
  production binaryOperator fun sign op => do
    let left ← require operand sign .leftOperand
    let right ← require operand sign .rightOperand
    checkType left.type right.type sign (.operands left.type right.type)
    if op.isLogical then
      checkType left.type .boolean sign (.logicalOperands op left.type)
    return .binary op left right sign.line

def nested (inner : Parse (Option Expression)) : Parse (Option Expression) :=
  production (only (.symbol .openParen)) fun sign _ => do
    let inner ← require inner sign .nestedExpression
    let _ ← expect (.symbol .closeParen) sign .nestedClosing
    return .nested inner sign.line

/-- The two spellings of the character under the cursor. -/
def readSign : Kind → Option Unit
  | .keyword .readWord => some ()
  | .symbol .caret => some ()
  | _ => none

def readGlyph : Parse (Option Expression) :=
  production readSign fun sign _ => return .read sign.line

inductive LiteralKind where
  | character
  | integer
  | truth (value : Bool)
deriving DecidableEq, Repr

def literalKind : Kind → Option LiteralKind
  | .literal => some .character
  | .integer => some .integer
  | .keyword .trueWord => some (.truth true)
  | .keyword .falseWord => some (.truth false)
  | _ => none

/-- The largest number that a literal can stand for. -/
def maxInteger : Nat :=
  0x7FFFFFFFFFFFFFFF

def literalValue (kind : LiteralKind) (text : List Char) : Except ParseCause Value :=
  match kind with
  | .truth value => .ok (.boolean value)
  | .character =>
      match text with
      | ['\'', glyph, '\''] => .ok (.character glyph)
      | _ => .error .malformedCharacter
  | .integer =>
      match Text.decimal? text with
      | some value => if value ≤ maxInteger then .ok (.number value) else .error .integerOutOfRange
      | none => .error .integerOutOfRange

def literal : Parse (Option Expression) :=
  production literalKind fun lexeme kind =>
    match literalValue kind lexeme.text.toList with
    | .ok value => return .literal value lexeme.line
    | .error cause => fail lexeme cause

/-- An expression with at most a number of levels. -/
def expression : Nat → Parse (Option Expression)
  | 0 => return none
  | levels + 1 =>
      firstOf
        [negation (expression levels), binary (expression levels), nested (expression levels),
          readGlyph, literal]

end TapeMachine.Grammar
