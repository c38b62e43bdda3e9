import TapeMachine.Proofs.Syntax.Phrase
import TapeMachine.Proofs.Syntax.Typing

/-!
Contract: how large the tree of some tokens is.

Owns: the statements of a tree at any depth, and the bound that the tokens of a phrase set to its
statements and expressions.

Every node of a tree has a token of its own.
-/

namespace TapeMachine

/-! ## Phrases that are not empty -/

theorem ExpressionPhrase.ne_nil {tokens : List Lexeme} {expression : Expression}
    (phrase : ExpressionPhrase tokens expression) : tokens ≠ [] := by
  cases phrase <;> exact List.cons_ne_nil _ _

theorem BlockPhrase.ne_nil {tokens : List Lexeme} {block : Block}
    (phrase : BlockPhrase tokens block) : tokens ≠ [] := by
  cases phrase
  exact List.cons_ne_nil _ _

/-! ## Expressions -/

theorem ExpressionPhrase.length_parts_le {tokens : List Lexeme} {expression : Expression}
    (phrase : ExpressionPhrase tokens expression) : expression.parts.length ≤ tokens.length := by
  induction phrase with
  | negation begins inner inductionHypothesis =>
      simp only [Expression.parts, List.length_cons]
      omega
  | binary begins leftOperand rightOperand leftHypothesis rightHypothesis =>
      simp only [Expression.parts, List.length_cons, List.length_append]
      omega
  | nested begins phrase ends inductionHypothesis =>
      simp only [Expression.parts, List.length_cons, List.length_append]
      omega
  | read begins => exact Nat.le_refl 1
  | literal stands => exact Nat.le_refl 1

theorem ConditionPhrase.length_parts_le {tokens : List Lexeme} {test : Expression}
    (phrase : ConditionPhrase tokens test) : test.parts.length ≤ tokens.length := by
  cases phrase with
  | mk begins phrase ends =>
      have inside := phrase.length_parts_le
      simp only [List.length_cons, List.length_append]
      omega

/-! ## Statements -/

mutual

/-- A statement and all statements inside it. -/
def Statement.parts : Statement → List Statement
  | .ifThen condition body line => .ifThen condition body line :: body.parts
  | .ifElse condition thenBody elseBody line =>
      .ifElse condition thenBody elseBody line :: (thenBody.parts ++ elseBody.parts)
  | .whileLoop condition body line => .whileLoop condition body line :: body.parts
  | simple => [simple]

def Block.parts : Block → List Statement
  | .mk statements _ => Statement.partsOf statements

def Statement.partsOf : List Statement → List Statement
  | [] => []
  | first :: others => first.parts ++ Statement.partsOf others

end

mutual

theorem Statement.length_parts_le : (statement : Statement) → {tokens : List Lexeme} →
    StatementPhrase tokens statement →
    statement.parts.length + statement.expressions.length ≤ tokens.length
  | .empty _, _, .empty _ => by simp [Statement.parts, Statement.expressions]
  | .move .., _, .move _ operand _ => by
      have inside := operand.length_parts_le
      simp only [Statement.parts, Statement.expressions, List.length_cons, List.length_append]
      omega
  | .write .., _, .write _ operand _ => by
      have inside := operand.length_parts_le
      simp only [Statement.parts, Statement.expressions, List.length_cons, List.length_append]
      omega
  | .goto .., _, .goto .. => by simp [Statement.parts, Statement.expressions]
  | .ifThen _ body _, _, .ifThen _ tests block => by
      have test := tests.length_parts_le
      have inside := body.length_parts_le block
      simp only [Statement.parts, Statement.expressions, List.length_cons, List.length_append]
      omega
  | .ifElse _ thenBody elseBody _, _, .ifElse _ tests thenBlock _ elseBlock => by
      have test := tests.length_parts_le
      have first := thenBody.length_parts_le thenBlock
      have second := elseBody.length_parts_le elseBlock
      simp only [Statement.parts, Statement.expressions, List.length_cons, List.length_append]
      omega
  | .whileLoop _ body _, _, .whileLoop _ tests block => by
      have test := tests.length_parts_le
      have inside := body.length_parts_le block
      simp only [Statement.parts, Statement.expressions, List.length_cons, List.length_append]
      omega
  | .halt _, _, .halt .. => by simp [Statement.parts, Statement.expressions]

theorem Block.length_parts_le : (block : Block) → {tokens : List Lexeme} →
    BlockPhrase tokens block → block.parts.length + block.expressions.length ≤ tokens.length
  | .mk statements _, _, .mk _ phrases _ => by
      have inside := Statement.length_partsOf_le statements phrases
      simp only [Block.parts, Block.expressions, List.length_cons, List.length_append]
      omega

theorem Statement.length_partsOf_le : (statements : List Statement) → {tokens : List Lexeme} →
    Phrases StatementPhrase tokens statements →
    (Statement.partsOf statements).length + (Statement.expressionsOf statements).length ≤
      tokens.length
  | [], _, .nil => Nat.le_refl 0
  | first :: others, _, .cons head tail => by
      have front := first.length_parts_le head
      have rest := Statement.length_partsOf_le others tail
      simp only [Statement.partsOf, Statement.expressionsOf, List.length_append]
      omega

end

/-! ## Programs -/

def Item.parts : Item → List Statement
  | .statement entry => entry.parts
  | .label definition => definition.body.parts

/-- All statements of a program, at any depth and in its labels. -/
def Program.parts (program : Program) : List Statement :=
  program.items.flatMap Item.parts

theorem ItemPhrase.length_parts_le {tokens : List Lexeme} {item : Item}
    (phrase : ItemPhrase tokens item) :
    item.parts.length + item.expressions.length ≤ tokens.length := by
  cases phrase with
  | @label _ _ _ body names follows block =>
      have inside := body.length_parts_le block
      simp only [Item.parts, Item.expressions, List.length_cons]
      omega
  | statement phrase => exact Statement.length_parts_le _ phrase

theorem Phrases.length_parts_le {tokens : List Lexeme} {items : List Item}
    (phrases : Phrases ItemPhrase tokens items) :
    (items.flatMap Item.parts).length + (items.flatMap Item.expressions).length ≤
      tokens.length := by
  induction phrases with
  | nil => exact Nat.le_refl 0
  | cons head tail inductionHypothesis =>
      have front := head.length_parts_le
      simp only [List.flatMap_cons, List.length_append]
      omega

/-- A program has no more statements and expressions than tokens. -/
theorem ProgramPhrase.length_parts_le {tokens : List Lexeme} {program : Program}
    (phrase : ProgramPhrase tokens program) :
    program.parts.length + program.expressions.length ≤ tokens.length :=
  Phrases.length_parts_le phrase

end TapeMachine
