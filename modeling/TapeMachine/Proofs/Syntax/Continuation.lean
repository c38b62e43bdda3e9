import TapeMachine.Proofs.Syntax.Language
import TapeMachine.Proofs.Token.Layout

/-!
Contract: what may stand behind the beginning of a program.

Owns: what is left of a language of tokens behind a first token, the rows of statements, and the
continuations of a beginning whose next token is known.

One token is enough to tell the alternatives of a production apart. All statements about what is
left behind a token rest on that.
-/

open scoped Computability

namespace TapeMachine

/-! ## What is left behind a first token -/

theorem BinaryOp.exists_iff {holds : BinaryOp → Prop} :
    (∃ op, holds op) ↔ holds .equal ∨ holds .notEqual ∨ holds .less ∨ holds .greater ∨
      holds .lessEq ∨ holds .greaterEq ∨ holds .and ∨ holds .or := by
  constructor
  · rintro ⟨op, fact⟩
    cases op <;> simp [fact]
  · rintro (fact | fact | fact | fact | fact | fact | fact | fact) <;> exact ⟨_, fact⟩

theorem Direction.exists_iff {holds : Direction → Prop} :
    (∃ direction, holds direction) ↔ holds .left ∨ holds .right := by
  constructor
  · rintro ⟨direction, fact⟩
    cases direction <;> simp [fact]
  · rintro (fact | fact) <;> exact ⟨_, fact⟩

theorem Denotes.kind_mem {lexeme : Lexeme} {value : Value} (stands : Denotes lexeme value) :
    lexeme.kind ∈ [.literal, .integer, .keyword .trueWord, .keyword .falseWord] := by
  cases stands with
  | character kind text => simp [kind]
  | integer kind => simp [kind]
  | yes kind => simp [kind]
  | no kind => simp [kind]

theorem not_denotes {lexeme : Lexeme}
    (other : lexeme.kind ∉ [.literal, .integer, .keyword .trueWord, .keyword .falseWord]) :
    ¬ ∃ value, Denotes lexeme value :=
  fun ⟨_, stands⟩ => other stands.kind_mem

@[simp] theorem nil_not_mem_expressionTokens : [] ∉ expressionTokens := by
  rintro ⟨tree, phrase⟩
  cases phrase

@[simp] theorem nil_not_mem_blockTokens : [] ∉ blockTokens := by
  simp [blockTokens_eq]

@[simp] theorem nil_not_mem_itemTokens : [] ∉ itemTokens :=
  fun ⟨_, phrase⟩ => phrase.ne_nil rfl

@[simp] theorem nil_not_mem_statementTokens : [] ∉ statementTokens :=
  fun ⟨_, phrase⟩ => phrase.ne_nil rfl

section Behind

variable {lexeme : Lexeme} {others : List Lexeme} {after : Language Lexeme}

theorem cons_mem_expressionTokens_mul :
    lexeme :: others ∈ expressionTokens * after ↔
      lexeme.kind = .symbol .bang ∧ others ∈ expressionTokens * after ∨
        (∃ op : BinaryOp, lexeme.kind = op.kind) ∧
          others ∈ expressionTokens * (expressionTokens * after) ∨
        lexeme.kind = .symbol .openParen ∧
          others ∈ expressionTokens * (ofKind (.symbol .closeParen) * after) ∨
        (lexeme.kind ∈ readKinds ∨ ∃ value, Denotes lexeme value) ∧ others ∈ after := by
  conv_lhs => rw [expressionTokens_eq]
  simp only [add_mul, mul_assoc, Language.mem_add, cons_mem_ofKind_mul, cons_mem_oneToken_mul]
  tauto

theorem expression_behind_bang (begins : lexeme.kind = .symbol .bang) :
    lexeme :: others ∈ expressionTokens * after ↔ others ∈ expressionTokens * after := by
  have noLiteral : ¬ ∃ value, Denotes lexeme value := not_denotes (by simp [begins])
  rw [cons_mem_expressionTokens_mul]
  simp [begins, noLiteral, BinaryOp.exists_iff, BinaryOp.kind, readKinds]

theorem expression_behind_operator {op : BinaryOp} (begins : lexeme.kind = op.kind) :
    lexeme :: others ∈ expressionTokens * after ↔
      others ∈ expressionTokens * (expressionTokens * after) := by
  have noLiteral : ¬ ∃ value, Denotes lexeme value :=
    not_denotes (by cases op <;> simp [begins, BinaryOp.kind])
  rw [cons_mem_expressionTokens_mul]
  cases op <;> simp [begins, noLiteral, BinaryOp.exists_iff, BinaryOp.kind, readKinds]

theorem expression_behind_opening (begins : lexeme.kind = .symbol .openParen) :
    lexeme :: others ∈ expressionTokens * after ↔
      others ∈ expressionTokens * (ofKind (.symbol .closeParen) * after) := by
  have noLiteral : ¬ ∃ value, Denotes lexeme value := not_denotes (by simp [begins])
  rw [cons_mem_expressionTokens_mul]
  simp [begins, noLiteral, BinaryOp.exists_iff, BinaryOp.kind, readKinds]

theorem expression_behind_read (begins : lexeme.kind ∈ readKinds) :
    lexeme :: others ∈ expressionTokens * after ↔ others ∈ after := by
  have kinds : lexeme.kind = .keyword .readWord ∨ lexeme.kind = .symbol .caret := by
    simpa [readKinds] using begins
  rw [cons_mem_expressionTokens_mul]
  rcases kinds with kind | kind <;>
    simp [kind, BinaryOp.exists_iff, BinaryOp.kind, readKinds]

theorem expression_behind_literal {value : Value} (stands : Denotes lexeme value) :
    lexeme :: others ∈ expressionTokens * after ↔ others ∈ after := by
  have denoted : ∃ value, Denotes lexeme value := ⟨value, stands⟩
  have kinds := stands.kind_mem
  simp only [List.mem_cons, List.not_mem_nil, or_false] at kinds
  rw [cons_mem_expressionTokens_mul]
  rcases kinds with kind | kind | kind | kind <;>
    simp [denoted, kind, BinaryOp.exists_iff, BinaryOp.kind, readKinds]

theorem cons_mem_statementTokens_mul :
    lexeme :: others ∈ statementTokens * after ↔
      lexeme.kind = .symbol .semicolon ∧ others ∈ after ∨
        (∃ direction : Direction, lexeme.kind ∈ direction.kinds) ∧
          others ∈ expressionTokens * (ofKind (.symbol .semicolon) * after) ∨
        lexeme.kind = .keyword .writeWord ∧
          others ∈ expressionTokens * (ofKind (.symbol .semicolon) * after) ∨
        lexeme.kind = .keyword .gotoWord ∧
          others ∈ ofKind .identifier * (ofKind (.symbol .semicolon) * after) ∨
        lexeme.kind = .keyword .ifWord ∧
          others ∈ conditionTokens * (blockTokens * (otherwiseTokens * after)) ∨
        lexeme.kind = .keyword .whileWord ∧ others ∈ conditionTokens * (blockTokens * after) ∨
        lexeme.kind = .keyword .haltWord ∧ others ∈ ofKind (.symbol .semicolon) * after := by
  rw [statementTokens_eq]
  simp only [add_mul, mul_assoc, Language.mem_add, cons_mem_ofKind_mul, cons_mem_oneToken_mul,
    or_assoc]

theorem cons_mem_otherwiseTokens_mul :
    lexeme :: others ∈ otherwiseTokens * after ↔
      lexeme.kind = .keyword .elseWord ∧ others ∈ blockTokens * after ∨
        lexeme :: others ∈ after := by
  rw [otherwiseTokens, add_mul, one_mul, mul_assoc, Language.mem_add, cons_mem_ofKind_mul, or_comm]

theorem mem_otherwiseTokens_mul (member : others ∈ after) : others ∈ otherwiseTokens * after :=
  Language.append_mem_mul nil_mem_otherwiseTokens member

end Behind

/-! ## Rows of statements -/

/-- The kinds that some statement begins with. -/
def Kind.OpensStatement (kind : Kind) : Prop :=
  ∃ statement : Statement, kind ∈ statement.openings

/-- What may follow where a statement may stand, and behind it the same again: a token that begins a
statement begins nothing else there, and no else branch stands there. -/
structure StatementRow (row : Language Lexeme) : Prop where
  repeats : ∀ {lexeme others}, lexeme.kind.OpensStatement →
    (lexeme :: others ∈ row ↔ lexeme :: others ∈ statementTokens * row)
  noElse : ∀ {lexeme others}, lexeme :: others ∈ row → lexeme.kind ≠ .keyword .elseWord

theorem opensStatement_of_cons_mem {lexeme : Lexeme} {others : List Lexeme}
    {after : Language Lexeme} (member : lexeme :: others ∈ statementTokens * after) :
    lexeme.kind.OpensStatement := by
  obtain ⟨used, ⟨tree, phrase⟩, rest, -, same⟩ := Language.mem_mul.mp member
  obtain ⟨word, inner, rfl, begins⟩ := phrase.front
  obtain ⟨rfl, -⟩ := List.cons.inj same
  exact ⟨tree, begins⟩

/-- The statements of a block and the closing brace behind them. -/
theorem row_block (after : Language Lexeme) :
    StatementRow (statementTokens∗ * (ofKind (.symbol .closeBrace) * after)) where
  repeats := by
    rintro lexeme others ⟨statement, begins⟩
    have noBrace : lexeme.kind ≠ .symbol .closeBrace := by
      rintro kind
      rw [kind] at begins
      cases statement with
      | move direction distance line =>
          cases direction <;> simp [Statement.openings, Direction.kinds] at begins
      | _ => simp [Statement.openings] at begins
    conv_lhs => rw [kstar_mul, Language.mem_add, cons_mem_ofKind_mul]
    simp [noBrace]
  noElse := by
    intro lexeme others member
    rw [kstar_mul, Language.mem_add, cons_mem_ofKind_mul] at member
    rcases member with ⟨kind, -⟩ | member
    · simp [kind]
    · obtain ⟨statement, begins⟩ := opensStatement_of_cons_mem member
      exact (Statement.ne_of_mem_openings begins).1

theorem cons_mem_programTokens {lexeme : Lexeme} {others : List Lexeme} :
    lexeme :: others ∈ programTokens ↔
      lexeme.kind = .identifier ∧
          others ∈ ofKind (.symbol .colon) * (blockTokens * programTokens) ∨
        lexeme :: others ∈ statementTokens * programTokens := by
  conv_lhs => rw [programTokens_eq, ← Language.one_add_self_mul_kstar_eq_kstar, ← programTokens_eq]
  rw [Language.mem_add, itemTokens_eq, add_mul, mul_assoc, mul_assoc, Language.mem_add,
    cons_mem_ofKind_mul]
  simp [Language.mem_one]

theorem program_behind_name {lexeme : Lexeme} {others : List Lexeme}
    (begins : lexeme.kind = .identifier) :
    lexeme :: others ∈ programTokens ↔
      others ∈ ofKind (.symbol .colon) * (blockTokens * programTokens) := by
  have noStatement : lexeme :: others ∉ statementTokens * programTokens := by
    intro member
    obtain ⟨statement, opens⟩ := opensStatement_of_cons_mem member
    exact (Statement.ne_of_mem_openings opens).2 begins
  rw [cons_mem_programTokens]
  simp [begins, noStatement]

theorem row_program : StatementRow programTokens where
  repeats := by
    rintro lexeme others ⟨statement, begins⟩
    rw [cons_mem_programTokens]
    simp [(Statement.ne_of_mem_openings begins).2]
  noElse := by
    intro lexeme others member
    rcases cons_mem_programTokens.mp member with ⟨kind, -⟩ | member
    · simp [kind]
    · obtain ⟨statement, begins⟩ := opensStatement_of_cons_mem member
      exact (Statement.ne_of_mem_openings begins).1

namespace StatementRow

variable {row : Language Lexeme} {lexeme : Lexeme} {others : List Lexeme}

theorem behind_semicolon (isRow : StatementRow row) (begins : lexeme.kind = .symbol .semicolon) :
    lexeme :: others ∈ row ↔ others ∈ row := by
  rw [isRow.repeats ⟨.empty 0, by simp [Statement.openings, begins]⟩, cons_mem_statementTokens_mul]
  simp [begins, Direction.exists_iff, Direction.kinds]

theorem behind_direction (isRow : StatementRow row) {direction : Direction}
    (begins : lexeme.kind ∈ direction.kinds) :
    lexeme :: others ∈ row ↔
      others ∈ expressionTokens * (ofKind (.symbol .semicolon) * row) := by
  rw [isRow.repeats ⟨.move direction (.read 0) 0, begins⟩, cons_mem_statementTokens_mul]
  cases direction <;> simp only [Direction.kinds, List.mem_cons, List.not_mem_nil, or_false]
    at begins <;> rcases begins with kind | kind <;>
    simp [kind, Direction.exists_iff, Direction.kinds]

theorem behind_write (isRow : StatementRow row) (begins : lexeme.kind = .keyword .writeWord) :
    lexeme :: others ∈ row ↔
      others ∈ expressionTokens * (ofKind (.symbol .semicolon) * row) := by
  rw [isRow.repeats ⟨.write (.read 0) 0, by simp [Statement.openings, begins]⟩,
    cons_mem_statementTokens_mul]
  simp [begins, Direction.exists_iff, Direction.kinds]

theorem behind_goto (isRow : StatementRow row) (begins : lexeme.kind = .keyword .gotoWord) :
    lexeme :: others ∈ row ↔
      others ∈ ofKind .identifier * (ofKind (.symbol .semicolon) * row) := by
  rw [isRow.repeats ⟨.goto "" 0, by simp [Statement.openings, begins]⟩,
    cons_mem_statementTokens_mul]
  simp [begins, Direction.exists_iff, Direction.kinds]

theorem behind_if (isRow : StatementRow row) (begins : lexeme.kind = .keyword .ifWord) :
    lexeme :: others ∈ row ↔
      others ∈ conditionTokens * (blockTokens * (otherwiseTokens * row)) := by
  rw [isRow.repeats ⟨.ifThen (.read 0) default 0, by simp [Statement.openings, begins]⟩,
    cons_mem_statementTokens_mul]
  simp [begins, Direction.exists_iff, Direction.kinds]

theorem behind_while (isRow : StatementRow row) (begins : lexeme.kind = .keyword .whileWord) :
    lexeme :: others ∈ row ↔ others ∈ conditionTokens * (blockTokens * row) := by
  rw [isRow.repeats ⟨.whileLoop (.read 0) default 0, by simp [Statement.openings, begins]⟩,
    cons_mem_statementTokens_mul]
  simp [begins, Direction.exists_iff, Direction.kinds]

theorem behind_halt (isRow : StatementRow row) (begins : lexeme.kind = .keyword .haltWord) :
    lexeme :: others ∈ row ↔ others ∈ ofKind (.symbol .semicolon) * row := by
  rw [isRow.repeats ⟨.halt 0, by simp [Statement.openings, begins]⟩, cons_mem_statementTokens_mul]
  simp [begins, Direction.exists_iff, Direction.kinds]

/-- Behind a block that an else branch may follow, the next token tells whether it does. -/
theorem behind_else (isRow : StatementRow row) (begins : lexeme.kind = .keyword .elseWord) :
    lexeme :: others ∈ otherwiseTokens * row ↔ others ∈ blockTokens * row := by
  have noElse : lexeme :: others ∉ row := fun member => isRow.noElse member begins
  rw [cons_mem_otherwiseTokens_mul]
  simp [begins, noElse]

end StatementRow

/-! ## Languages with a member in some text -/

/-- The token can stand in a text. -/
def Lexeme.Genuine (lexeme : Lexeme) : Prop :=
  lexeme.kind.Admits lexeme.text.toList

/-- Some sequence of the language is made of tokens that can stand in a text. -/
def Completable (language : Language Lexeme) : Prop :=
  ∃ tokens ∈ language, ∀ lexeme ∈ tokens, lexeme.Genuine

section Completable

@[simp] theorem completable_mul_iff {first second : Language Lexeme} :
    Completable (first * second) ↔ Completable first ∧ Completable second := by
  constructor
  · rintro ⟨_, ⟨left, memberLeft, right, memberRight, rfl⟩, genuine⟩
    exact ⟨⟨left, memberLeft, fun lexeme member => genuine lexeme (by simp [member])⟩,
      ⟨right, memberRight, fun lexeme member => genuine lexeme (by simp [member])⟩⟩
  · rintro ⟨⟨left, memberLeft, genuineLeft⟩, ⟨right, memberRight, genuineRight⟩⟩
    refine ⟨left ++ right, Language.append_mem_mul memberLeft memberRight, ?_⟩
    simpa only [List.forall_mem_append] using ⟨genuineLeft, genuineRight⟩

theorem completable_of_nil_mem {language : Language Lexeme} (member : [] ∈ language) :
    Completable language :=
  ⟨[], member, by simp⟩

theorem completable_ofKind {kind : Kind} {text : String} (admits : kind.Admits text.toList) :
    Completable (ofKind kind) :=
  ⟨[⟨kind, text, 1, ""⟩], by simp, by simpa [Lexeme.Genuine] using admits⟩

@[simp] theorem completable_symbol (sign : Symbol) : Completable (ofKind (.symbol sign)) :=
  @completable_ofKind _ (String.ofList [sign.glyph]) ⟨by simp [Kind.Spells], by simp⟩

@[simp] theorem completable_keyword (word : Keyword) : Completable (ofKind (.keyword word)) :=
  completable_ofKind ⟨rfl, by simp⟩

@[simp] theorem completable_identifier : Completable (ofKind .identifier) := by
  refine @completable_ofKind _ "x" ⟨⟨'x', [], by decide, by simp, rfl⟩, fun _ word => ?_⟩
  cases word <;> decide

@[simp] theorem completable_expressionTokens : Completable expressionTokens := by
  obtain ⟨_, ⟨sign, kind, rfl⟩, genuine⟩ := completable_keyword .readWord
  exact ⟨[sign], (ExpressionPhrase.read (by simp [readKinds, kind])).mem, genuine⟩

@[simp] theorem completable_conditionTokens : Completable conditionTokens := by
  simp [conditionTokens_eq]

@[simp] theorem completable_kstar (language : Language Lexeme) : Completable language∗ :=
  completable_of_nil_mem (Language.nil_mem_kstar language)

@[simp] theorem completable_blockTokens : Completable blockTokens := by
  simp [blockTokens_eq]

@[simp] theorem completable_otherwiseTokens : Completable otherwiseTokens :=
  completable_of_nil_mem nil_mem_otherwiseTokens

@[simp] theorem completable_programTokens : Completable programTokens := by
  simp [programTokens_eq]

end Completable

/-! ## Beginnings of programs -/

/-- The tokens are the beginning of a program: there are further tokens, of the kind that can stand
in a text, with which they are one. -/
def Viable (tokens : List Lexeme) : Prop :=
  ∃ others, (∀ lexeme ∈ others, lexeme.Genuine) ∧ tokens ++ others ∈ programTokens

/-- The tokens that have been seen are the beginning of a program, and what stands behind them in a
program is known: all of `rest` can, and nothing else that begins like the tokens ahead. -/
structure Awaits (seen ahead : List Lexeme) (rest : Language Lexeme) : Prop where
  completable : Completable rest
  continues : ∀ others ∈ rest, seen ++ others ∈ programTokens
  nothingElse : ∀ others, others.head? = ahead.head? → seen ++ others ∈ programTokens →
    others ∈ rest

/-- Nothing in the language begins like the tokens ahead. -/
def Stuck (rest : Language Lexeme) (ahead : List Lexeme) : Prop :=
  ∀ others ∈ rest, others.head? ≠ ahead.head?

theorem stuck_of {rest : Language Lexeme} {ahead : List Lexeme} (nonempty : [] ∉ rest)
    (other : ∀ lexeme ∈ ahead.head?, ∀ others, lexeme :: others ∉ rest) : Stuck rest ahead := by
  intro others member same
  cases others with
  | nil => exact nonempty member
  | cons lexeme others => exact other lexeme (by simp [← same]) others member

namespace Awaits

variable {seen ahead : List Lexeme} {rest after : Language Lexeme} {lexeme : Lexeme}

theorem start (tokens : List Lexeme) : Awaits [] tokens programTokens where
  completable := completable_programTokens
  continues := fun _ member => member
  nothingElse := fun _ _ member => member

/-- Past the next token. -/
theorem past (awaits : Awaits seen (lexeme :: ahead) rest) (completable : Completable after)
    (behind : ∀ others, lexeme :: others ∈ rest ↔ others ∈ after) :
    Awaits (seen ++ [lexeme]) ahead after where
  completable := completable
  continues := by
    intro others member
    rw [List.append_assoc]
    exact awaits.continues _ ((behind others).mpr member)
  nothingElse := by
    intro others _ member
    rw [List.append_assoc] at member
    exact (behind others).mp (awaits.nothingElse _ rfl member)

/-- The next token tells which part of the continuations is possible. -/
theorem narrow (awaits : Awaits seen ahead rest) (completable : Completable after)
    (part : ∀ others ∈ after, others ∈ rest)
    (only : ∀ others ∈ rest, others.head? = ahead.head? → others ∈ after) :
    Awaits seen ahead after where
  completable := completable
  continues := fun others member => awaits.continues others (part others member)
  nothingElse := fun others same member => only others (awaits.nothingElse others same member) same

theorem viable (awaits : Awaits seen ahead rest) : Viable seen := by
  obtain ⟨others, member, genuine⟩ := awaits.completable
  exact ⟨others, genuine, awaits.continues others member⟩

theorem not_mem_of_stuck (awaits : Awaits seen ahead rest) (stuck : Stuck rest ahead)
    {others : List Lexeme} (same : others.head? = ahead.head?) :
    seen ++ others ∉ programTokens :=
  fun member => stuck others (awaits.nothingElse others same member) same

end Awaits

end TapeMachine
