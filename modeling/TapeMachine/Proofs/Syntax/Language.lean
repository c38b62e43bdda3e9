import Mathlib.Computability.Language
import TapeMachine.Proofs.Syntax.Phrase

/-!
Contract: the grammar as languages of tokens.

Owns: the language of each sort of phrase, and an equation for each of them that says which tokens
and which other languages its members are put together from.

Does not own: trees. A sequence of tokens is in a language if it is the phrase of some tree, so no
type, no label and no range is looked at.
-/

open scoped Computability

namespace TapeMachine

/-! ## First tokens -/

/-- The sequences of one token that satisfies something. -/
def oneToken (accepts : Lexeme → Prop) : Language Lexeme :=
  {tokens | ∃ lexeme, accepts lexeme ∧ tokens = [lexeme]}

def ofKind (kind : Kind) : Language Lexeme :=
  oneToken fun lexeme => lexeme.kind = kind

section First

variable {accepts : Lexeme → Prop} {kind : Kind} {lexeme : Lexeme} {others : List Lexeme}
  {language after : Language Lexeme}

@[simp] theorem singleton_mem_oneToken : [lexeme] ∈ oneToken accepts ↔ accepts lexeme := by
  constructor
  · rintro ⟨_, accepted, same⟩
    obtain rfl := List.singleton_inj.mp same
    exact accepted
  · exact fun accepted => ⟨lexeme, accepted, rfl⟩

@[simp] theorem singleton_mem_ofKind : [lexeme] ∈ ofKind kind ↔ lexeme.kind = kind :=
  singleton_mem_oneToken

@[simp] theorem nil_not_mem_oneToken : [] ∉ oneToken accepts := by
  rintro ⟨lexeme, -, same⟩
  simp at same

@[simp] theorem nil_not_mem_ofKind : [] ∉ ofKind kind :=
  nil_not_mem_oneToken

@[simp] theorem cons_mem_oneToken_mul :
    lexeme :: others ∈ oneToken accepts * after ↔ accepts lexeme ∧ others ∈ after := by
  rw [Language.mem_mul]
  constructor
  · rintro ⟨_, ⟨first, accepted, rfl⟩, rest, member, same⟩
    obtain ⟨rfl, rfl⟩ := List.cons.inj same
    exact ⟨accepted, member⟩
  · rintro ⟨accepted, member⟩
    exact ⟨[lexeme], ⟨lexeme, accepted, rfl⟩, others, member, rfl⟩

@[simp] theorem cons_mem_ofKind_mul :
    lexeme :: others ∈ ofKind kind * after ↔ lexeme.kind = kind ∧ others ∈ after :=
  cons_mem_oneToken_mul

@[simp] theorem nil_mem_mul : [] ∈ language * after ↔ [] ∈ language ∧ [] ∈ after := by
  rw [Language.mem_mul]
  constructor
  · rintro ⟨first, memberFirst, second, memberSecond, same⟩
    obtain ⟨rfl, rfl⟩ := List.append_eq_nil_iff.mp same
    exact ⟨memberFirst, memberSecond⟩
  · exact fun ⟨memberFirst, memberSecond⟩ => ⟨[], memberFirst, [], memberSecond, rfl⟩

/-- A row and what stands behind it: either nothing of the row is left, or one more is to come. -/
theorem kstar_mul (language after : Language Lexeme) :
    language∗ * after = after + language * (language∗ * after) := by
  rw [← mul_assoc, ← Language.one_add_self_mul_kstar_eq_kstar, add_mul, one_mul,
    Language.one_add_self_mul_kstar_eq_kstar]

end First

/-! ## The languages of the grammar -/

def expressionTokens : Language Lexeme :=
  {tokens | ∃ tree, ExpressionPhrase tokens tree}

def conditionTokens : Language Lexeme :=
  {tokens | ∃ test, ConditionPhrase tokens test}

def statementTokens : Language Lexeme :=
  {tokens | ∃ tree, StatementPhrase tokens tree}

def blockTokens : Language Lexeme :=
  {tokens | ∃ body, BlockPhrase tokens body}

def itemTokens : Language Lexeme :=
  {tokens | ∃ item, ItemPhrase tokens item}

def programTokens : Language Lexeme :=
  {tokens | ∃ program, ProgramPhrase tokens program}

abbrev operatorToken : Language Lexeme :=
  oneToken fun sign => ∃ op : BinaryOp, sign.kind = op.kind

abbrev directionToken : Language Lexeme :=
  oneToken fun word => ∃ direction : Direction, word.kind ∈ direction.kinds

/-- An else branch, or nothing. -/
def otherwiseTokens : Language Lexeme :=
  1 + ofKind (.keyword .elseWord) * blockTokens

section Membership

variable {tokens : List Lexeme}

theorem ExpressionPhrase.mem {tree : Expression} (phrase : ExpressionPhrase tokens tree) :
    tokens ∈ expressionTokens :=
  ⟨tree, phrase⟩

theorem ConditionPhrase.mem {test : Expression} (phrase : ConditionPhrase tokens test) :
    tokens ∈ conditionTokens :=
  ⟨test, phrase⟩

theorem StatementPhrase.mem {tree : Statement} (phrase : StatementPhrase tokens tree) :
    tokens ∈ statementTokens :=
  ⟨tree, phrase⟩

theorem BlockPhrase.mem {body : Block} (phrase : BlockPhrase tokens body) :
    tokens ∈ blockTokens :=
  ⟨body, phrase⟩

theorem ItemPhrase.mem {item : Item} (phrase : ItemPhrase tokens item) : tokens ∈ itemTokens :=
  ⟨item, phrase⟩

end Membership

/-! ## Equations -/

section Equations

variable {language : Language Lexeme} {tokens : List Lexeme} {final : Lexeme} {kind : Kind}

/-- What ends with a certain token. -/
theorem append_singleton_mem_mul (member : tokens ∈ language) (ends : final.kind = kind) :
    tokens ++ [final] ∈ language * ofKind kind :=
  Language.append_mem_mul member (singleton_mem_ofKind.mpr ends)

theorem expressionTokens_eq :
    expressionTokens =
      ofKind (.symbol .bang) * expressionTokens +
        operatorToken * (expressionTokens * expressionTokens) +
        ofKind (.symbol .openParen) * (expressionTokens * ofKind (.symbol .closeParen)) +
        oneToken (fun sign => sign.kind ∈ readKinds) +
        oneToken (fun lexeme => ∃ value, Denotes lexeme value) := by
  ext tokens
  simp only [Language.mem_add]
  constructor
  · rintro ⟨tree, phrase⟩
    cases phrase with
    | negation begins operand => simp [begins, operand.mem]
    | binary begins left right =>
        have operands := Language.append_mem_mul left.mem right.mem
        have sign : ∃ op : BinaryOp, _ = op.kind := ⟨_, begins⟩
        simp only [cons_mem_oneToken_mul, sign, operands, and_self, true_or, or_true]
    | nested begins inner ends => simp [begins, append_singleton_mem_mul inner.mem ends]
    | read begins => simp [begins]
    | @literal lexeme value stands =>
        have denoted : ∃ value, Denotes lexeme value := ⟨value, stands⟩
        simp [denoted]
  · rintro ((((negated | operation) | group) | read) | literal)
    · obtain ⟨_, ⟨sign, begins, rfl⟩, tokens, ⟨tree, inner⟩, rfl⟩ := negated
      exact (ExpressionPhrase.negation begins inner).mem
    · obtain ⟨_, ⟨sign, ⟨op, begins⟩, rfl⟩, _, ⟨first, ⟨left, leftPhrase⟩, second,
        ⟨right, rightPhrase⟩, rfl⟩, rfl⟩ := operation
      exact (ExpressionPhrase.binary begins leftPhrase rightPhrase).mem
    · obtain ⟨_, ⟨opening, begins, rfl⟩, _, ⟨tokens, ⟨tree, inner⟩, _, ⟨closing, ends, rfl⟩, rfl⟩,
        rfl⟩ := group
      exact (ExpressionPhrase.nested begins inner ends).mem
    · obtain ⟨sign, begins, rfl⟩ := read
      exact (ExpressionPhrase.read begins).mem
    · obtain ⟨lexeme, ⟨value, stands⟩, rfl⟩ := literal
      exact (ExpressionPhrase.literal stands).mem

theorem conditionTokens_eq :
    conditionTokens =
      ofKind (.symbol .openParen) * (expressionTokens * ofKind (.symbol .closeParen)) := by
  ext tokens
  constructor
  · rintro ⟨test, ⟨begins, phrase, ends⟩⟩
    simp [begins, append_singleton_mem_mul phrase.mem ends]
  · rintro ⟨_, ⟨opening, begins, rfl⟩, _, ⟨tokens, ⟨test, phrase⟩, _, ⟨closing, ends, rfl⟩, rfl⟩,
      rfl⟩
    exact (ConditionPhrase.mk begins phrase ends).mem

/-- The tokens of a row of phrases are a row of sequences that are phrases each. -/
theorem mem_kstar_iff_phrases {α : Type} {phrase : List Lexeme → α → Prop}
    (same : ∀ tokens, tokens ∈ language ↔ ∃ tree, phrase tokens tree) :
    tokens ∈ language∗ ↔ ∃ trees, Phrases phrase tokens trees := by
  rw [Language.mem_kstar]
  constructor
  · rintro ⟨parts, rfl, members⟩
    induction parts with
    | nil => exact ⟨[], .nil⟩
    | cons part parts inductionHypothesis =>
        obtain ⟨member, members⟩ := List.forall_mem_cons.mp members
        obtain ⟨tree, head⟩ := (same part).mp member
        obtain ⟨trees, tail⟩ := inductionHypothesis members
        exact ⟨tree :: trees, .cons head tail⟩
  · rintro ⟨trees, phrases⟩
    induction phrases with
    | nil => exact ⟨[], rfl, by simp⟩
    | @cons first others tree trees head tail inductionHypothesis =>
        obtain ⟨parts, rfl, members⟩ := inductionHypothesis
        have member : first ∈ language := (same first).mpr ⟨tree, head⟩
        exact ⟨first :: parts, rfl, List.forall_mem_cons.mpr ⟨member, members⟩⟩

theorem blockTokens_eq :
    blockTokens =
      ofKind (.symbol .openBrace) * (statementTokens∗ * ofKind (.symbol .closeBrace)) := by
  have rows {tokens : List Lexeme} :
      tokens ∈ statementTokens∗ ↔ ∃ trees, Phrases StatementPhrase tokens trees :=
    mem_kstar_iff_phrases fun _ => Iff.rfl
  ext tokens
  constructor
  · rintro ⟨body, ⟨begins, phrases, ends⟩⟩
    simp [begins, append_singleton_mem_mul (rows.mpr ⟨_, phrases⟩) ends]
  · rintro ⟨_, ⟨opening, begins, rfl⟩, _, ⟨tokens, member, _, ⟨closing, ends, rfl⟩, rfl⟩, rfl⟩
    obtain ⟨statements, phrases⟩ := rows.mp member
    exact (BlockPhrase.mk begins phrases ends).mem

theorem nil_mem_otherwiseTokens : [] ∈ otherwiseTokens :=
  .inl Language.nil_mem_one

/-- The else branch of a conditional may be left out. -/
theorem conditional_without_else
    (member : tokens ∈ ofKind (.keyword .ifWord) * (conditionTokens * blockTokens)) :
    tokens ∈ ofKind (.keyword .ifWord) * (conditionTokens * (blockTokens * otherwiseTokens)) := by
  obtain ⟨word, begins, _, ⟨test, tests, body, block, rfl⟩, rfl⟩ := member
  have rest : body ++ [] ∈ blockTokens * otherwiseTokens :=
    Language.append_mem_mul block nil_mem_otherwiseTokens
  rw [List.append_nil] at rest
  exact Language.append_mem_mul begins (Language.append_mem_mul tests rest)

theorem statementTokens_eq :
    statementTokens =
      ofKind (.symbol .semicolon) +
        directionToken * (expressionTokens * ofKind (.symbol .semicolon)) +
        ofKind (.keyword .writeWord) * (expressionTokens * ofKind (.symbol .semicolon)) +
        ofKind (.keyword .gotoWord) * (ofKind .identifier * ofKind (.symbol .semicolon)) +
        ofKind (.keyword .ifWord) * (conditionTokens * (blockTokens * otherwiseTokens)) +
        ofKind (.keyword .whileWord) * (conditionTokens * blockTokens) +
        ofKind (.keyword .haltWord) * ofKind (.symbol .semicolon) := by
  ext tokens
  simp only [Language.mem_add]
  constructor
  · rintro ⟨tree, phrase⟩
    cases phrase with
    | empty ends => simp [ends]
    | @move word final direction tokens distance begins operand ends =>
        have sign : ∃ direction : Direction, word.kind ∈ direction.kinds := ⟨direction, begins⟩
        simp [sign, append_singleton_mem_mul operand.mem ends]
    | write begins operand ends => simp [begins, append_singleton_mem_mul operand.mem ends]
    | goto begins names ends => simp [begins, names, ends]
    | ifThen begins tests block =>
        have parts := conditional_without_else (cons_mem_ofKind_mul.mpr
          ⟨begins, Language.append_mem_mul tests.mem block.mem⟩)
        simp [parts]
    | @ifElse word other test first second condition thenBody elseBody begins tests thenBlock
        otherwise elseBlock =>
        have present : other :: second ∈ otherwiseTokens :=
          .inr (cons_mem_ofKind_mul.mpr ⟨otherwise, elseBlock.mem⟩)
        have parts :=
          Language.append_mem_mul tests.mem (Language.append_mem_mul thenBlock.mem present)
        simp [begins, parts]
    | whileLoop begins tests block =>
        simp [begins, Language.append_mem_mul tests.mem block.mem]
    | halt begins ends => simp [begins, ends]
  · rintro ((((((empty | move) | write) | goto) | conditional) | loop) | halt)
    · obtain ⟨final, ends, rfl⟩ := empty
      exact (StatementPhrase.empty ends).mem
    · obtain ⟨_, ⟨word, ⟨direction, begins⟩, rfl⟩, _, ⟨tokens, ⟨tree, operand⟩, _,
        ⟨final, ends, rfl⟩, rfl⟩, rfl⟩ := move
      exact (StatementPhrase.move begins operand ends).mem
    · obtain ⟨_, ⟨word, begins, rfl⟩, _, ⟨tokens, ⟨tree, operand⟩, _, ⟨final, ends, rfl⟩, rfl⟩,
        rfl⟩ := write
      exact (StatementPhrase.write begins operand ends).mem
    · obtain ⟨_, ⟨word, begins, rfl⟩, _, ⟨_, ⟨label, names, rfl⟩, _, ⟨final, ends, rfl⟩, rfl⟩,
        rfl⟩ := goto
      exact (StatementPhrase.goto begins names ends).mem
    · obtain ⟨_, ⟨word, begins, rfl⟩, _, ⟨test, ⟨condition, tests⟩, _, ⟨first, ⟨body, block⟩,
        second, otherwise, rfl⟩, rfl⟩, rfl⟩ := conditional
      rcases otherwise with rfl | ⟨_, ⟨other, otherwise, rfl⟩, tokens, ⟨elseBody, elseBlock⟩, rfl⟩
      · simpa using (StatementPhrase.ifThen begins tests block).mem
      · exact (StatementPhrase.ifElse begins tests block otherwise elseBlock).mem
    · obtain ⟨_, ⟨word, begins, rfl⟩, _, ⟨test, ⟨condition, tests⟩, tokens, ⟨body, block⟩, rfl⟩,
        rfl⟩ := loop
      exact (StatementPhrase.whileLoop begins tests block).mem
    · obtain ⟨_, ⟨word, begins, rfl⟩, _, ⟨final, ends, rfl⟩, rfl⟩ := halt
      exact (StatementPhrase.halt begins ends).mem

theorem itemTokens_eq :
    itemTokens =
      ofKind .identifier * (ofKind (.symbol .colon) * blockTokens) + statementTokens := by
  ext tokens
  rw [Language.mem_add]
  constructor
  · rintro ⟨item, phrase⟩
    cases phrase with
    | label names follows block => simp [names, follows, block.mem]
    | statement phrase => exact .inr phrase.mem
  · rintro (label | ⟨tree, phrase⟩)
    · obtain ⟨_, ⟨name, names, rfl⟩, _, ⟨_, ⟨colon, follows, rfl⟩, tokens, ⟨body, block⟩, rfl⟩,
        rfl⟩ := label
      exact (ItemPhrase.label names follows block).mem
    · exact (ItemPhrase.statement phrase).mem

theorem programTokens_eq : programTokens = itemTokens∗ := by
  ext tokens
  refine Iff.trans ?_ (mem_kstar_iff_phrases fun _ => Iff.rfl).symm
  constructor
  · exact fun ⟨program, phrase⟩ => ⟨program.items, phrase⟩
  · exact fun ⟨items, phrases⟩ => ⟨⟨items⟩, phrases⟩

end Equations

end TapeMachine
