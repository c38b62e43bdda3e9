import TapeMachine.Syntax.Tree
import TapeMachine.Token.Lexer

/-!
Contract: the ways in which a program's text can be wrong.

Owns: the causes, the wording of each, and the error with its place.
-/

namespace TapeMachine

/-- What a construct that has begun is still missing. -/
inductive Missing where
  | moveDistance
  | writtenValue
  | semicolon
  | gotoLabel
  | conditionOpening
  | condition
  | conditionClosing
  | ifBlock
  | elseBlock
  | whileBlock
  | labelColon
  | labelBlock
  | blockClosing
  | operand
  | leftOperand
  | rightOperand
  | nestedExpression
  | nestedClosing
deriving DecidableEq, Repr

def Missing.reason : Missing → String
  | .moveDistance => "Move missing distance"
  | .writtenValue => "Write missing value"
  | .semicolon => "Missing Semicolon"
  | .gotoLabel => "Goto missing label"
  | .conditionOpening => "Conditional missing opening parenthesis"
  | .condition => "Conditional missing expression"
  | .conditionClosing => "Conditional missing closing parenthesis"
  | .ifBlock => "If missing statement block"
  | .elseBlock => "Else missing statement block"
  | .whileBlock => "While missing statement block"
  | .labelColon => "Function name missing colon"
  | .labelBlock => "Function name missing statement block"
  | .blockClosing => "Unmatched \x7b"
  | .operand => "Unary operator missing operand"
  | .leftOperand => "Binary operator missing left operand"
  | .rightOperand => "Binary operator missing right operand"
  | .nestedExpression => "Unfilled nested expression"
  | .nestedClosing => "Unmatched ("

/-- A part whose type does not fit its place. -/
inductive TypeMismatch where
  | operands (left right : ValueType)
  | logicalOperands (op : BinaryOp) (found : ValueType)
  | negated (found : ValueType)
  | moveDistance (found : ValueType)
  | writtenValue (found : ValueType)
  | condition (found : ValueType)
deriving DecidableEq, Repr

def TypeMismatch.reason : TypeMismatch → String
  | .operands left right => s!"Argument types do not match each other ({left} vs {right})"
  | .logicalOperands op found => s!"'{op.symbol}' needs boolean operands, found {found}"
  | .negated found => s!"Unary operator needs a boolean operand, found {found}"
  | .moveDistance found => s!"Moving the machine requires a numeric expression, found {found}"
  | .writtenValue found =>
      s!"Can't write anything other than a single character, found {found}"
  | .condition found => s!"Conditional statement must test a boolean, found {found}"

inductive ParseCause where
  | lex
  | typeMismatch (mismatch : TypeMismatch)
  | missing (part : Missing)
  /-- A jump to a label that has not been defined yet. -/
  | unresolvedLabel (name : String)
  /-- Something is left over behind the last statement. -/
  | unexpectedToken
  | malformedCharacter
  | integerOutOfRange
deriving DecidableEq, Repr

def ParseCause.reason : ParseCause → String
  | .lex => LexError.reason
  | .typeMismatch mismatch => mismatch.reason
  | .missing part => part.reason
  | .unresolvedLabel name => s!"Label '{name}' is not defined"
  | .unexpectedToken => "Unexpected token"
  | .malformedCharacter => "Malformed character literal"
  | .integerOutOfRange => "Integer literal out of range"

structure ParseError where
  cause : ParseCause
  line : Nat
  text : String
  source : String
deriving DecidableEq, Repr

namespace ParseError

def atLexeme (lexeme : Lexeme) (cause : ParseCause) : ParseError where
  cause := cause
  line := lexeme.line
  text := lexeme.text
  source := lexeme.source

def ofLexError (error : LexError) : ParseError where
  cause := .lex
  line := error.line
  text := error.text
  source := error.source

def message (error : ParseError) : String :=
  s!"Parse error in {error.source} at line {error.line} near '{error.text}': {error.cause.reason}"

end ParseError

end TapeMachine
