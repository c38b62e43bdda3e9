import TapeMachine.Grammar.Program

/-!
Contract: the recursions and loops of the grammar, followed a number of rounds.

Owns: every recursion and every loop with an arbitrary step in the place of all further rounds, and
the agreement with the grammar, which finds nothing there.

The numbers of levels and repetitions do not belong to the language; they make the grammar total.
What does not depend on the further rounds comes out without such numbers as well, after at most
that many rounds.
-/

namespace TapeMachine.Grammar

/-- What is done in the rounds that are not followed: anything at all. -/
structure Further where
  expression : Parse (Option Expression)
  statement : Parse (Option Statement)
  /-- The other statements of a block. -/
  statements : Parse (List Statement)
  /-- The other items of a program. -/
  items : Parse (List Item)

/-- No further round finds anything. -/
def Further.nothing : Further where
  expression := return none
  statement := return none
  statements := return []
  items := return []

/-! ## Unrolling -/

/-- The first rounds of running a step until it yields nothing. -/
def manyAbove {α : Type} (others : Parse (List α)) (step : Parse (Option α)) :
    Nat → Parse (List α)
  | 0 => others
  | limit + 1 => do
      match ← step with
      | none => return []
      | some result => return result :: (← manyAbove others step limit)

def expressionAbove (further : Further) : Nat → Parse (Option Expression)
  | 0 => further.expression
  | levels + 1 =>
      let inner := expressionAbove further levels
      firstOf [negation inner, binary inner, nested inner, readGlyph, literal]

def blockAbove (others : Parse (List Statement)) (statement : Parse (Option Statement))
    (limit : Nat) : Parse (Option Block) :=
  production (only (.symbol .openBrace)) fun sign _ => do
    modifyLabels Environment.nest
    let statements ← manyAbove others statement limit
    modifyLabels Environment.unnest
    let _ ← expect (.symbol .closeBrace) sign .blockClosing
    return .mk statements sign.line

def statementAbove (further : Further) (limit : Nat) : Nat → Parse (Option Statement)
  | 0 => further.statement
  | levels + 1 =>
      let expression := expressionAbove further limit
      let block := blockAbove further.statements (statementAbove further limit levels) limit
      firstOf
        [emptyStatement, moveStatement expression, writeStatement expression, gotoStatement,
          ifStatement expression block, whileStatement expression block, haltStatement]

def itemAbove (further : Further) (limit : Nat) : Parse (Option Item) := do
  let block := blockAbove further.statements (statementAbove further limit limit) limit
  match ← labelDefinition block with
  | some definition => return some (.label definition)
  | none =>
      match ← statementAbove further limit limit with
      | some statement => return some (.statement statement)
      | none => return none

def programAbove (further : Further) (limit : Nat) : Parse Program := do
  let items ← manyAbove further.items (itemAbove further limit) limit
  if ← hasLexeme then
    match ← nextLexeme with
    | some lexeme => fail lexeme .unexpectedToken
    | none => return ⟨items⟩
  else return ⟨items⟩

/-! ## Agreement with the grammar -/

theorem many_eq_above {α : Type} (step : Parse (Option α)) (limit : Nat) :
    many step limit = manyAbove (return []) step limit := by
  induction limit with
  | zero => rfl
  | succ limit inductionHypothesis =>
      rw [many, inductionHypothesis]
      rfl

theorem expression_eq_above (levels : Nat) :
    expression levels = expressionAbove .nothing levels := by
  induction levels with
  | zero => rfl
  | succ levels inductionHypothesis => rw [expression, expressionAbove, inductionHypothesis]

theorem block_eq_above (statement : Parse (Option Statement)) (limit : Nat) :
    block statement limit = blockAbove Further.nothing.statements statement limit := by
  unfold block blockAbove
  simp only [many_eq_above]
  rfl

theorem statement_eq_above (limit levels : Nat) :
    statement limit levels = statementAbove .nothing limit levels := by
  induction levels with
  | zero => rfl
  | succ levels inductionHypothesis =>
      rw [statement, statementAbove, inductionHypothesis, block_eq_above, expression_eq_above]

theorem program_eq_above (limit : Nat) : program limit = programAbove .nothing limit := by
  have item_eq : item limit = itemAbove .nothing limit := by
    unfold itemAbove
    rw [← statement_eq_above, ← block_eq_above]
    rfl
  unfold program programAbove
  rw [item_eq, many_eq_above]
  rfl

end TapeMachine.Grammar
