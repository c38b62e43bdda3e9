import TapeMachine.Syntax.Tree
import TapeMachine.Token.Lexer
import TapeMachine.Text.Decimal

/-!
Contract: which tokens are the phrases of the grammar, and which tree each phrase has.

Owns: the derivations of expressions, statements, blocks and programs, over lists of tokens.

Does not own: how a phrase is found. No type, no label and no range is looked at here:

    program    = (label | statement)*
    label      = identifier ':' block
    block      = '{' statement* '}'
    statement  = ';' | ('left' | 'right' | '<<' | '>>') expression ';' | 'write' expression ';'
               | 'goto' identifier ';' | 'if' condition block ('else' block)?
               | 'while' condition block | 'halt' ';'
    condition  = '(' expression ')'
    expression = '!' expression | operator expression expression | '(' expression ')'
               | 'read' | '^' | character | integer | 'true' | 'false'
-/

namespace TapeMachine

/-! ## Terminals -/

def BinaryOp.kind : BinaryOp → Kind
  | .equal => .symbol .equal
  | .notEqual => .keyword .notEqual
  | .less => .symbol .less
  | .greater => .symbol .greater
  | .lessEq => .keyword .lessEqual
  | .greaterEq => .keyword .greaterEqual
  | .and => .symbol .ampersand
  | .or => .symbol .bar

def Direction.kinds : Direction → List Kind
  | .left => [.keyword .leftWord, .keyword .shiftLeft]
  | .right => [.keyword .rightWord, .keyword .shiftRight]

def readKinds : List Kind :=
  [.keyword .readWord, .symbol .caret]

/-- The value that a token stands for; how large a number it may be is not asked. -/
inductive Denotes : Lexeme → Value → Prop where
  | character {lexeme : Lexeme} {glyph : Char} (kind : lexeme.kind = .literal)
      (text : lexeme.text.toList = ['\'', glyph, '\'']) : Denotes lexeme (.character glyph)
  | integer {lexeme : Lexeme} (kind : lexeme.kind = .integer) :
      Denotes lexeme (.number (Text.decimalValue lexeme.text.toList))
  | yes {lexeme : Lexeme} (kind : lexeme.kind = .keyword .trueWord) :
      Denotes lexeme (.boolean true)
  | no {lexeme : Lexeme} (kind : lexeme.kind = .keyword .falseWord) :
      Denotes lexeme (.boolean false)

/-! ## Derivations -/

/-- The expression that some tokens are. -/
inductive ExpressionPhrase : List Lexeme → Expression → Prop where
  | negation {sign : Lexeme} {tokens : List Lexeme} {operand : Expression}
      (begins : sign.kind = .symbol .bang) (inner : ExpressionPhrase tokens operand) :
      ExpressionPhrase (sign :: tokens) (.negation operand sign.line)
  | binary {sign : Lexeme} {op : BinaryOp} {first second : List Lexeme} {left right : Expression}
      (begins : sign.kind = op.kind) (leftOperand : ExpressionPhrase first left)
      (rightOperand : ExpressionPhrase second right) :
      ExpressionPhrase (sign :: (first ++ second)) (.binary op left right sign.line)
  | nested {opening closing : Lexeme} {tokens : List Lexeme} {inner : Expression}
      (begins : opening.kind = .symbol .openParen) (phrase : ExpressionPhrase tokens inner)
      (ends : closing.kind = .symbol .closeParen) :
      ExpressionPhrase (opening :: (tokens ++ [closing])) (.nested inner opening.line)
  | read {sign : Lexeme} (begins : sign.kind ∈ readKinds) :
      ExpressionPhrase [sign] (.read sign.line)
  | literal {lexeme : Lexeme} {value : Value} (stands : Denotes lexeme value) :
      ExpressionPhrase [lexeme] (.literal value lexeme.line)

/-- The expression that some tokens put between parentheses. -/
inductive ConditionPhrase : List Lexeme → Expression → Prop where
  | mk {opening closing : Lexeme} {tokens : List Lexeme} {test : Expression}
      (begins : opening.kind = .symbol .openParen) (phrase : ExpressionPhrase tokens test)
      (ends : closing.kind = .symbol .closeParen) :
      ConditionPhrase (opening :: (tokens ++ [closing])) test

/-- A row of phrases of one sort, one behind the other. -/
inductive Phrases {α : Type} (phrase : List Lexeme → α → Prop) : List Lexeme → List α → Prop where
  | nil : Phrases phrase [] []
  | cons {first others : List Lexeme} {tree : α} {trees : List α} (head : phrase first tree)
      (tail : Phrases phrase others trees) : Phrases phrase (first ++ others) (tree :: trees)

mutual

/-- The statement that some tokens are. -/
inductive StatementPhrase : List Lexeme → Statement → Prop where
  | empty {final : Lexeme} (ends : final.kind = .symbol .semicolon) :
      StatementPhrase [final] (.empty final.line)
  | move {word final : Lexeme} {direction : Direction} {tokens : List Lexeme}
      {distance : Expression} (begins : word.kind ∈ direction.kinds)
      (operand : ExpressionPhrase tokens distance) (ends : final.kind = .symbol .semicolon) :
      StatementPhrase (word :: (tokens ++ [final])) (.move direction distance word.line)
  | write {word final : Lexeme} {tokens : List Lexeme} {value : Expression}
      (begins : word.kind = .keyword .writeWord) (operand : ExpressionPhrase tokens value)
      (ends : final.kind = .symbol .semicolon) :
      StatementPhrase (word :: (tokens ++ [final])) (.write value word.line)
  | goto {word label final : Lexeme} (begins : word.kind = .keyword .gotoWord)
      (names : label.kind = .identifier) (ends : final.kind = .symbol .semicolon) :
      StatementPhrase [word, label, final] (.goto label.text word.line)
  | ifThen {word : Lexeme} {test tokens : List Lexeme} {condition : Expression} {body : Block}
      (begins : word.kind = .keyword .ifWord) (tests : ConditionPhrase test condition)
      (block : BlockPhrase tokens body) :
      StatementPhrase (word :: (test ++ tokens)) (.ifThen condition body word.line)
  | ifElse {word other : Lexeme} {test first second : List Lexeme} {condition : Expression}
      {thenBody elseBody : Block} (begins : word.kind = .keyword .ifWord)
      (tests : ConditionPhrase test condition) (thenBlock : BlockPhrase first thenBody)
      (otherwise : other.kind = .keyword .elseWord) (elseBlock : BlockPhrase second elseBody) :
      StatementPhrase (word :: (test ++ (first ++ other :: second)))
        (.ifElse condition thenBody elseBody word.line)
  | whileLoop {word : Lexeme} {test tokens : List Lexeme} {condition : Expression} {body : Block}
      (begins : word.kind = .keyword .whileWord) (tests : ConditionPhrase test condition)
      (block : BlockPhrase tokens body) :
      StatementPhrase (word :: (test ++ tokens)) (.whileLoop condition body word.line)
  | halt {word final : Lexeme} (begins : word.kind = .keyword .haltWord)
      (ends : final.kind = .symbol .semicolon) : StatementPhrase [word, final] (.halt word.line)

inductive BlockPhrase : List Lexeme → Block → Prop where
  | mk {opening closing : Lexeme} {tokens : List Lexeme} {statements : List Statement}
      (begins : opening.kind = .symbol .openBrace)
      (phrases : Phrases StatementPhrase tokens statements)
      (ends : closing.kind = .symbol .closeBrace) :
      BlockPhrase (opening :: (tokens ++ [closing])) (.mk statements opening.line)

end

/-- The item of the top level that some tokens are. -/
inductive ItemPhrase : List Lexeme → Item → Prop where
  | label {name colon : Lexeme} {tokens : List Lexeme} {body : Block}
      (names : name.kind = .identifier) (follows : colon.kind = .symbol .colon)
      (block : BlockPhrase tokens body) :
      ItemPhrase (name :: colon :: tokens) (.label ⟨name.text, body, name.line⟩)
  | statement {tokens : List Lexeme} {entry : Statement} (phrase : StatementPhrase tokens entry) :
      ItemPhrase tokens (.statement entry)

/-- The program that some tokens are. -/
def ProgramPhrase (tokens : List Lexeme) (program : Program) : Prop :=
  Phrases ItemPhrase tokens program.items

/-! ## The first token of a phrase -/

/-- The kinds that a statement may begin with. -/
def Statement.openings : Statement → List Kind
  | .empty _ => [.symbol .semicolon]
  | .move direction _ _ => direction.kinds
  | .write _ _ => [.keyword .writeWord]
  | .goto _ _ => [.keyword .gotoWord]
  | .ifThen _ _ _ => [.keyword .ifWord]
  | .ifElse _ _ _ _ => [.keyword .ifWord]
  | .whileLoop _ _ _ => [.keyword .whileWord]
  | .halt _ => [.keyword .haltWord]

/-- No statement begins like an else branch or like a label. -/
theorem Statement.ne_of_mem_openings {statement : Statement} {kind : Kind}
    (begins : kind ∈ statement.openings) : kind ≠ .keyword .elseWord ∧ kind ≠ .identifier := by
  cases statement with
  | move direction distance line =>
      cases direction <;> simp only [openings, Direction.kinds, List.mem_cons, List.not_mem_nil,
        or_false] at begins <;> rcases begins with rfl | rfl <;> decide
  | _ =>
      simp only [openings, List.mem_singleton] at begins
      subst begins
      decide

theorem StatementPhrase.front {tokens : List Lexeme} {statement : Statement}
    (phrase : StatementPhrase tokens statement) :
    ∃ word others, tokens = word :: others ∧ word.kind ∈ statement.openings := by
  cases phrase with
  | empty ends => exact ⟨_, _, rfl, by simp [Statement.openings, ends]⟩
  | move begins operand ends => exact ⟨_, _, rfl, begins⟩
  | write begins operand ends => exact ⟨_, _, rfl, by simp [Statement.openings, begins]⟩
  | goto begins names ends => exact ⟨_, _, rfl, by simp [Statement.openings, begins]⟩
  | ifThen begins tests block => exact ⟨_, _, rfl, by simp [Statement.openings, begins]⟩
  | ifElse begins tests thenBlock otherwise elseBlock =>
      exact ⟨_, _, rfl, by simp [Statement.openings, begins]⟩
  | whileLoop begins tests block => exact ⟨_, _, rfl, by simp [Statement.openings, begins]⟩
  | halt begins ends => exact ⟨_, _, rfl, by simp [Statement.openings, begins]⟩

theorem StatementPhrase.ne_nil {tokens : List Lexeme} {statement : Statement}
    (phrase : StatementPhrase tokens statement) : tokens ≠ [] := by
  rcases phrase.front with ⟨word, others, rfl, -⟩
  simp

/-- No item begins like an else branch. -/
theorem ItemPhrase.front {tokens : List Lexeme} {item : Item} (phrase : ItemPhrase tokens item) :
    ∃ word others, tokens = word :: others ∧ word.kind ≠ .keyword .elseWord := by
  cases phrase with
  | label names follows block => exact ⟨_, _, rfl, by simp [names]⟩
  | statement phrase =>
      rcases phrase.front with ⟨word, others, same, begins⟩
      exact ⟨word, others, same, (Statement.ne_of_mem_openings begins).1⟩

theorem ItemPhrase.ne_nil {tokens : List Lexeme} {item : Item} (phrase : ItemPhrase tokens item) :
    tokens ≠ [] := by
  rcases phrase.front with ⟨word, others, rfl, -⟩
  simp

/-- A row of phrases that are not empty has at least as many tokens as phrases. -/
theorem Phrases.length_le {α : Type} {phrase : List Lexeme → α → Prop} {tokens : List Lexeme}
    {trees : List α} (nonempty : ∀ first tree, phrase first tree → first ≠ [])
    (phrases : Phrases phrase tokens trees) : trees.length ≤ tokens.length := by
  induction phrases with
  | nil => exact Nat.le_refl 0
  | cons head tail inductionHypothesis =>
      have positive := List.length_pos_iff.mpr (nonempty _ _ head)
      simp only [List.length_cons, List.length_append]
      omega

end TapeMachine
