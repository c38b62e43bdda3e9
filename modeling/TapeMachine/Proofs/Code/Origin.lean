import Mathlib.Data.List.Forall2
import TapeMachine.Proofs.Code.Segment
import TapeMachine.Proofs.Grammar.Language

/-!
Contract: which token each instruction of a program comes from.

Owns: the instructions that some tokens stand for, each with the one of these tokens that it comes
from, the traces of whole programs, and the agreement of lowered code and its lines with them.

Traces are derived from tokens, as phrases are, and no tree stands in between. An operand, a
comparison and a written negation come from the first token of their expression. Other instructions
come from the word that their statement begins with, except for the jump behind a then branch, which
comes from the opening brace of the else branch.
-/

namespace TapeMachine

/-- Instructions, each with the token that it comes from. -/
abbrev Trace := List (Instruction × Lexeme)

/-! ## Derivations -/

/-- The instructions that some tokens stand for as an expression. -/
inductive ExpressionTrace : List Lexeme → Trace → Prop where
  | negation {sign : Lexeme} {tokens : List Lexeme} {operand : Trace}
      (begins : sign.kind = .symbol .bang) (inner : ExpressionTrace tokens operand) :
      ExpressionTrace (sign :: tokens) (operand ++ [(.compare .negation, sign)])
  | binary {sign : Lexeme} {op : BinaryOp} {first second : List Lexeme} {left right : Trace}
      (begins : sign.kind = op.kind) (leftOperand : ExpressionTrace first left)
      (rightOperand : ExpressionTrace second right) :
      ExpressionTrace (sign :: (first ++ second))
        (left ++ right ++ [(.compare (.binary op), sign)])
  | nested {opening closing : Lexeme} {tokens : List Lexeme} {inner : Trace}
      (begins : opening.kind = .symbol .openParen) (phrase : ExpressionTrace tokens inner)
      (ends : closing.kind = .symbol .closeParen) :
      ExpressionTrace (opening :: (tokens ++ [closing])) inner
  | read {sign : Lexeme} (begins : sign.kind ∈ readKinds) :
      ExpressionTrace [sign] [(.read, sign)]
  | literal {lexeme : Lexeme} {value : Value} (stands : Denotes lexeme value) :
      ExpressionTrace [lexeme] [(.push value, lexeme)]

/-- The instructions that some tokens stand for as an expression between parentheses. -/
inductive ConditionTrace : List Lexeme → Trace → Prop where
  | mk {opening closing : Lexeme} {tokens : List Lexeme} {test : Trace}
      (begins : opening.kind = .symbol .openParen) (phrase : ExpressionTrace tokens test)
      (ends : closing.kind = .symbol .closeParen) :
      ConditionTrace (opening :: (tokens ++ [closing])) test

mutual

/-- The instructions that some tokens stand for as a statement. -/
inductive StatementTrace : List Lexeme → Trace → Prop where
  | empty {final : Lexeme} (ends : final.kind = .symbol .semicolon) : StatementTrace [final] []
  | move {word final : Lexeme} {direction : Direction} {tokens : List Lexeme} {distance : Trace}
      (begins : word.kind ∈ direction.kinds) (operand : ExpressionTrace tokens distance)
      (ends : final.kind = .symbol .semicolon) :
      StatementTrace (word :: (tokens ++ [final])) (distance ++ [(.move direction, word)])
  | write {word final : Lexeme} {tokens : List Lexeme} {value : Trace}
      (begins : word.kind = .keyword .writeWord) (operand : ExpressionTrace tokens value)
      (ends : final.kind = .symbol .semicolon) :
      StatementTrace (word :: (tokens ++ [final])) (value ++ [(.write, word)])
  | goto {word label final : Lexeme} (begins : word.kind = .keyword .gotoWord)
      (names : label.kind = .identifier) (ends : final.kind = .symbol .semicolon) :
      StatementTrace [word, label, final] [(.call label.text, word)]
  | ifThen {word opening : Lexeme} {test tokens : List Lexeme} {condition body : Trace}
      (begins : word.kind = .keyword .ifWord) (tests : ConditionTrace test condition)
      (block : BlockTrace tokens opening body) :
      StatementTrace (word :: (test ++ tokens))
        (condition ++ [(.compare .negation, word), (.jumpIf body.length, word)] ++ body)
  | ifElse {word opening other brace : Lexeme} {test first second : List Lexeme}
      {condition thenBody elseBody : Trace} (begins : word.kind = .keyword .ifWord)
      (tests : ConditionTrace test condition) (thenBlock : BlockTrace first opening thenBody)
      (otherwise : other.kind = .keyword .elseWord)
      (elseBlock : BlockTrace second brace elseBody) :
      StatementTrace (word :: (test ++ (first ++ other :: second)))
        (condition ++ [(.duplicate, word), (.compare .negation, word),
          (.jumpIf thenBody.length, word)] ++ thenBody ++ [(.jumpIf elseBody.length, brace)] ++
          elseBody)
  | whileLoop {word opening : Lexeme} {test tokens : List Lexeme} {condition body : Trace}
      (begins : word.kind = .keyword .whileWord) (tests : ConditionTrace test condition)
      (block : BlockTrace tokens opening body) :
      StatementTrace (word :: (test ++ tokens))
        (condition ++ [(.compare .negation, word), (.jumpIf (body.length + 1), word)] ++ body ++
          [(.jump (-(body.length + 2 + condition.length : Nat)), word)])
  | halt {word final : Lexeme} (begins : word.kind = .keyword .haltWord)
      (ends : final.kind = .symbol .semicolon) : StatementTrace [word, final] [(.halt, word)]

/-- The opening brace of the block that some tokens are, and the instructions they stand for. -/
inductive BlockTrace : List Lexeme → Lexeme → Trace → Prop where
  | mk {opening closing : Lexeme} {tokens : List Lexeme} {traces : List Trace}
      (begins : opening.kind = .symbol .openBrace) (phrases : Phrases StatementTrace tokens traces)
      (ends : closing.kind = .symbol .closeBrace) :
      BlockTrace (opening :: (tokens ++ [closing])) opening traces.flatten

end

/-- What an item of the top level adds to an executable. -/
inductive Emission where
  | main (trace : Trace)
  | body (label : String) (trace : Trace)

/-- What some tokens add to an executable as an item of the top level. -/
inductive ItemTrace : List Lexeme → Emission → Prop where
  | label {name colon opening : Lexeme} {tokens : List Lexeme} {trace : Trace}
      (names : name.kind = .identifier) (follows : colon.kind = .symbol .colon)
      (block : BlockTrace tokens opening trace) :
      ItemTrace (name :: colon :: tokens) (.body name.text trace)
  | statement {tokens : List Lexeme} {trace : Trace} (entry : StatementTrace tokens trace) :
      ItemTrace tokens (.main trace)

namespace Emission

def mainTrace : Emission → Trace
  | .main trace => trace
  | .body _ _ => []

def bodyOf? (name : String) : Emission → Option Trace
  | .main _ => none
  | .body label trace => if label = name then some trace else none

/-- The trace of a routine: all of the top level, or the last body that a label has. -/
def trace? (emissions : List Emission) : Routine → Option Trace
  | .main => some (emissions.flatMap mainTrace)
  | .label name => emissions.reverse.findSome? (bodyOf? name)

end Emission

/-! ## Tokens of a trace -/

/-- Every instruction of the trace comes from one of the tokens. -/
def Trace.From (tokens : List Lexeme) (trace : Trace) : Prop :=
  ∀ entry ∈ trace, entry.2 ∈ tokens

namespace Trace

@[simp] theorem from_nil (tokens : List Lexeme) : From tokens [] := by
  simp [From]

@[simp] theorem from_cons {tokens : List Lexeme} {entry : Instruction × Lexeme} {trace : Trace} :
    From tokens (entry :: trace) ↔ entry.2 ∈ tokens ∧ From tokens trace :=
  List.forall_mem_cons

@[simp] theorem from_append {tokens : List Lexeme} {first second : Trace} :
    From tokens (first ++ second) ↔ From tokens first ∧ From tokens second :=
  List.forall_mem_append

theorem From.mono {tokens more : List Lexeme} {trace : Trace} (origin : From tokens trace)
    (within : tokens ⊆ more) : From more trace :=
  fun entry member => within (origin entry member)

end Trace

theorem ExpressionTrace.origin {tokens : List Lexeme} {trace : Trace}
    (derived : ExpressionTrace tokens trace) : Trace.From tokens trace := by
  induction derived with
  | negation _ _ inductionHypothesis =>
      simpa using inductionHypothesis.mono (List.subset_cons_self _ _)
  | binary _ _ _ leftHypothesis rightHypothesis =>
      simpa using ⟨leftHypothesis.mono (by simp), rightHypothesis.mono (by simp)⟩
  | nested _ _ _ inductionHypothesis => exact inductionHypothesis.mono (by simp)
  | read => simp
  | literal => simp

theorem ConditionTrace.origin {tokens : List Lexeme} {trace : Trace} :
    ConditionTrace tokens trace → Trace.From tokens trace
  | .mk _ phrase _ => phrase.origin.mono (by simp)

mutual

theorem StatementTrace.origin {tokens : List Lexeme} {trace : Trace} :
    StatementTrace tokens trace → Trace.From tokens trace
  | .empty _ => Trace.from_nil _
  | .move _ operand _ => by simpa using operand.origin.mono (by simp)
  | .write _ operand _ => by simpa using operand.origin.mono (by simp)
  | .goto _ _ _ => by simp
  | @StatementTrace.ifThen word _ test tokens _ _ _ tests block => by
      have condition : Trace.From (word :: (test ++ tokens)) _ := tests.origin.mono (by simp)
      have body : Trace.From (word :: (test ++ tokens)) _ :=
        (BlockTrace.origin block).1.mono (by simp)
      simp [condition, body]
  | @StatementTrace.ifElse word _ other _ test first second _ _ _ _ tests thenBlock _ elseBlock => by
      have condition : Trace.From (word :: (test ++ (first ++ other :: second))) _ :=
        tests.origin.mono (by simp)
      have thenBody : Trace.From (word :: (test ++ (first ++ other :: second))) _ :=
        (BlockTrace.origin thenBlock).1.mono fun _ member => by simp [member]
      have elseBody : Trace.From (word :: (test ++ (first ++ other :: second))) _ :=
        (BlockTrace.origin elseBlock).1.mono fun _ member => by simp [member]
      simp [condition, thenBody, elseBody, (BlockTrace.origin elseBlock).2]
  | @StatementTrace.whileLoop word _ test tokens _ _ _ tests block => by
      have condition : Trace.From (word :: (test ++ tokens)) _ := tests.origin.mono (by simp)
      have body : Trace.From (word :: (test ++ tokens)) _ :=
        (BlockTrace.origin block).1.mono (by simp)
      simp [condition, body]
  | .halt _ _ => by simp

theorem BlockTrace.origin {tokens : List Lexeme} {opening : Lexeme} {trace : Trace} :
    BlockTrace tokens opening trace → Trace.From tokens trace ∧ opening ∈ tokens
  | .mk _ phrases _ => ⟨(StatementTrace.origins phrases).mono (by simp), List.mem_cons_self⟩

theorem StatementTrace.origins {tokens : List Lexeme} {traces : List Trace} :
    Phrases StatementTrace tokens traces → Trace.From tokens traces.flatten
  | .nil => Trace.from_nil _
  | .cons head tail => by
      simpa using ⟨(StatementTrace.origin head).mono (by simp),
        (StatementTrace.origins tail).mono (by simp)⟩

end

theorem ItemTrace.origin {tokens : List Lexeme} {emission : Emission}
    (derived : ItemTrace tokens emission) : Trace.From tokens emission.mainTrace ∧
      ∀ name trace, emission.bodyOf? name = some trace → Trace.From tokens trace := by
  cases derived with
  | @label label colon opening tokens trace names follows block =>
      have body : Trace.From (label :: colon :: tokens) trace :=
        (BlockTrace.origin block).1.mono (List.subset_append_right [label, colon] tokens)
      refine ⟨Trace.from_nil _, fun name found => ?_⟩
      simp only [Emission.bodyOf?, Option.ite_none_right_eq_some, Option.some.injEq]
      rintro ⟨-, rfl⟩
      exact body
  | statement entry => exact ⟨entry.origin, by simp [Emission.bodyOf?]⟩

theorem ItemTrace.origins {tokens : List Lexeme} {emissions : List Emission}
    (derived : Phrases ItemTrace tokens emissions) : ∀ emission ∈ emissions,
      Trace.From tokens emission.mainTrace ∧
        ∀ name trace, emission.bodyOf? name = some trace → Trace.From tokens trace := by
  induction derived with
  | nil => simp
  | @cons first others emission emissions head _ inductionHypothesis =>
      have within : others ⊆ first ++ others := List.subset_append_right first others
      intro emission member
      rcases List.mem_cons.mp member with rfl | member
      · obtain ⟨main, body⟩ := head.origin
        exact ⟨main.mono (by simp), fun name trace found => (body name trace found).mono (by simp)⟩
      · obtain ⟨main, body⟩ := inductionHypothesis emission member
        exact ⟨main.mono within, fun name trace found => (body name trace found).mono within⟩

/-- The instructions of every routine come from the tokens. -/
theorem Emission.origin_of_trace? {tokens : List Lexeme} {emissions : List Emission}
    (derived : Phrases ItemTrace tokens emissions) {routine : Routine} {trace : Trace}
    (found : trace? emissions routine = some trace) : Trace.From tokens trace := by
  have each := ItemTrace.origins derived
  cases routine with
  | main =>
      obtain rfl := Option.some.inj found
      intro entry member
      obtain ⟨emission, among, member⟩ := List.mem_flatMap.mp member
      exact (each emission among).1 entry member
  | label name =>
      obtain ⟨emission, among, body⟩ := List.exists_of_findSome?_eq_some found
      exact (each emission (List.mem_reverse.mp among)).2 name trace body

/-! ## Traces and code -/

/-- The instructions of a trace, each with the line of its token. -/
def Trace.code (trace : Trace) : Code :=
  trace.map fun entry => ⟨entry.1, entry.2.line⟩

namespace Trace

@[simp] theorem code_nil : code [] = [] := rfl

@[simp] theorem code_cons (entry : Instruction × Lexeme) (trace : Trace) :
    code (entry :: trace) = ⟨entry.1, entry.2.line⟩ :: code trace := rfl

@[simp] theorem code_append (first second : Trace) :
    code (first ++ second) = code first ++ code second :=
  List.map_append

@[simp] theorem length_code (trace : Trace) : (code trace).length = trace.length :=
  List.length_map _

end Trace

/-- Every expression has a trace with the same code. -/
theorem ExpressionPhrase.trace {tokens : List Lexeme} {expression : Expression}
    (phrase : ExpressionPhrase tokens expression) :
    ∃ trace, ExpressionTrace tokens trace ∧ expression.code = Trace.code trace := by
  induction phrase with
  | negation begins _ inductionHypothesis =>
      obtain ⟨operand, inner, same⟩ := inductionHypothesis
      exact ⟨_, .negation begins inner, by simp [Expression.code, same]⟩
  | binary begins _ _ leftHypothesis rightHypothesis =>
      obtain ⟨left, first, sameLeft⟩ := leftHypothesis
      obtain ⟨right, second, sameRight⟩ := rightHypothesis
      exact ⟨_, .binary begins first second, by simp [Expression.code, sameLeft, sameRight]⟩
  | nested begins _ ends inductionHypothesis =>
      obtain ⟨inner, derived, same⟩ := inductionHypothesis
      exact ⟨_, .nested begins derived ends, same⟩
  | read begins => exact ⟨_, .read begins, rfl⟩
  | literal stands => exact ⟨_, .literal stands, rfl⟩

/-- Every trace is that of an expression. -/
theorem ExpressionTrace.phrase {tokens : List Lexeme} {trace : Trace}
    (derived : ExpressionTrace tokens trace) :
    ∃ expression, ExpressionPhrase tokens expression ∧ expression.code = Trace.code trace := by
  induction derived with
  | negation begins _ inductionHypothesis =>
      obtain ⟨operand, inner, same⟩ := inductionHypothesis
      exact ⟨_, .negation begins inner, by simp [Expression.code, same]⟩
  | binary begins _ _ leftHypothesis rightHypothesis =>
      obtain ⟨left, first, sameLeft⟩ := leftHypothesis
      obtain ⟨right, second, sameRight⟩ := rightHypothesis
      exact ⟨_, .binary begins first second, by simp [Expression.code, sameLeft, sameRight]⟩
  | nested begins _ ends inductionHypothesis =>
      obtain ⟨inner, phrase, same⟩ := inductionHypothesis
      exact ⟨.nested inner _, .nested begins phrase ends, same⟩
  | @read sign begins => exact ⟨_, .read begins, rfl⟩
  | literal stands => exact ⟨_, .literal stands, rfl⟩

theorem ConditionPhrase.trace {tokens : List Lexeme} {test : Expression}
    (phrase : ConditionPhrase tokens test) :
    ∃ trace, ConditionTrace tokens trace ∧ test.code = Trace.code trace := by
  obtain ⟨begins, inner, ends⟩ := phrase
  obtain ⟨trace, derived, same⟩ := inner.trace
  exact ⟨trace, .mk begins derived ends, same⟩

theorem ConditionTrace.phrase {tokens : List Lexeme} {trace : Trace}
    (derived : ConditionTrace tokens trace) :
    ∃ test, ConditionPhrase tokens test ∧ test.code = Trace.code trace := by
  obtain ⟨begins, inner, ends⟩ := derived
  obtain ⟨test, phrase, same⟩ := inner.phrase
  exact ⟨test, .mk begins phrase ends, same⟩

mutual

/-- Every statement has a trace with the same code. -/
theorem StatementPhrase.trace {tokens : List Lexeme} {statement : Statement} :
    StatementPhrase tokens statement →
    ∃ trace, StatementTrace tokens trace ∧ statement.code = Trace.code trace
  | .empty ends => ⟨_, .empty ends, rfl⟩
  | .move begins operand ends => by
      obtain ⟨distance, derived, same⟩ := operand.trace
      exact ⟨_, .move begins derived ends, by simp [Statement.code, same]⟩
  | .write begins operand ends => by
      obtain ⟨value, derived, same⟩ := operand.trace
      exact ⟨_, .write begins derived ends, by simp [Statement.code, same]⟩
  | .goto begins names ends => ⟨_, .goto begins names ends, rfl⟩
  | .ifThen begins tests block => by
      obtain ⟨condition, tested, sameTest⟩ := tests.trace
      obtain ⟨opening, body, derived, -, same⟩ := BlockPhrase.trace block
      exact ⟨_, .ifThen begins tested derived, by simp [Statement.code, sameTest, same]⟩
  | .ifElse begins tests thenBlock otherwise elseBlock => by
      obtain ⟨condition, tested, sameTest⟩ := tests.trace
      obtain ⟨opening, thenBody, first, -, sameThen⟩ := BlockPhrase.trace thenBlock
      obtain ⟨brace, elseBody, second, line, sameElse⟩ := BlockPhrase.trace elseBlock
      exact ⟨_, .ifElse begins tested first otherwise second,
        by simp [Statement.code, sameTest, sameThen, sameElse, line]⟩
  | .whileLoop begins tests block => by
      obtain ⟨condition, tested, sameTest⟩ := tests.trace
      obtain ⟨opening, body, derived, -, same⟩ := BlockPhrase.trace block
      exact ⟨_, .whileLoop begins tested derived, by simp [Statement.code, sameTest, same]⟩
  | .halt begins ends => ⟨_, .halt begins ends, rfl⟩

theorem BlockPhrase.trace {tokens : List Lexeme} {block : Block} :
    BlockPhrase tokens block →
    ∃ opening trace, BlockTrace tokens opening trace ∧ block.line = opening.line ∧
      block.code = Trace.code trace
  | .mk begins phrases ends => by
      obtain ⟨traces, derived, same⟩ := StatementPhrase.traces phrases
      exact ⟨_, _, .mk begins derived ends, rfl, same⟩

theorem StatementPhrase.traces {tokens : List Lexeme} {statements : List Statement} :
    Phrases StatementPhrase tokens statements →
    ∃ traces, Phrases StatementTrace tokens traces ∧
      Statement.codeOf statements = Trace.code traces.flatten
  | .nil => ⟨[], .nil, rfl⟩
  | .cons head tail => by
      obtain ⟨trace, first, sameFirst⟩ := StatementPhrase.trace head
      obtain ⟨traces, others, sameOthers⟩ := StatementPhrase.traces tail
      exact ⟨_, .cons first others, by simp [Statement.codeOf, sameFirst, sameOthers]⟩

end

mutual

/-- Every trace is that of a statement. -/
theorem StatementTrace.phrase {tokens : List Lexeme} {trace : Trace} :
    StatementTrace tokens trace →
    ∃ statement, StatementPhrase tokens statement ∧ statement.code = Trace.code trace
  | .empty ends => ⟨_, .empty ends, rfl⟩
  | .move begins operand ends => by
      obtain ⟨distance, phrase, same⟩ := operand.phrase
      exact ⟨_, .move begins phrase ends, by simp [Statement.code, same]⟩
  | .write begins operand ends => by
      obtain ⟨value, phrase, same⟩ := operand.phrase
      exact ⟨_, .write begins phrase ends, by simp [Statement.code, same]⟩
  | .goto begins names ends => ⟨_, .goto begins names ends, rfl⟩
  | .ifThen begins tests block => by
      obtain ⟨condition, tested, sameTest⟩ := tests.phrase
      obtain ⟨body, phrase, -, same⟩ := BlockTrace.phrase block
      exact ⟨_, .ifThen begins tested phrase, by simp [Statement.code, sameTest, same]⟩
  | .ifElse begins tests thenBlock otherwise elseBlock => by
      obtain ⟨condition, tested, sameTest⟩ := tests.phrase
      obtain ⟨thenBody, first, -, sameThen⟩ := BlockTrace.phrase thenBlock
      obtain ⟨elseBody, second, line, sameElse⟩ := BlockTrace.phrase elseBlock
      exact ⟨_, .ifElse begins tested first otherwise second,
        by simp [Statement.code, sameTest, sameThen, sameElse, line]⟩
  | .whileLoop begins tests block => by
      obtain ⟨condition, tested, sameTest⟩ := tests.phrase
      obtain ⟨body, phrase, -, same⟩ := BlockTrace.phrase block
      exact ⟨_, .whileLoop begins tested phrase, by simp [Statement.code, sameTest, same]⟩
  | .halt begins ends => ⟨_, .halt begins ends, rfl⟩

theorem BlockTrace.phrase {tokens : List Lexeme} {opening : Lexeme} {trace : Trace} :
    BlockTrace tokens opening trace →
    ∃ block, BlockPhrase tokens block ∧ block.line = opening.line ∧ block.code = Trace.code trace
  | .mk begins phrases ends => by
      obtain ⟨statements, derived, same⟩ := StatementTrace.phrases phrases
      exact ⟨_, .mk begins derived ends, rfl, same⟩

theorem StatementTrace.phrases {tokens : List Lexeme} {traces : List Trace} :
    Phrases StatementTrace tokens traces →
    ∃ statements, Phrases StatementPhrase tokens statements ∧
      Statement.codeOf statements = Trace.code traces.flatten
  | .nil => ⟨[], .nil, rfl⟩
  | .cons head tail => by
      obtain ⟨statement, first, sameFirst⟩ := StatementTrace.phrase head
      obtain ⟨statements, others, sameOthers⟩ := StatementTrace.phrases tail
      exact ⟨_, .cons first others, by simp [Statement.codeOf, sameFirst, sameOthers]⟩

end

/-! ## Programs -/

/-- An item adds to an executable what an emission says. -/
inductive Adds : Item → Emission → Prop where
  | statement {entry : Statement} {trace : Trace} (same : entry.code = Trace.code trace) :
      Adds (.statement entry) (.main trace)
  | label {definition : LabelDefinition} {trace : Trace}
      (same : definition.body.code = Trace.code trace) :
      Adds (.label definition) (.body definition.name trace)

theorem ItemPhrase.trace {tokens : List Lexeme} {item : Item} (phrase : ItemPhrase tokens item) :
    ∃ emission, ItemTrace tokens emission ∧ Adds item emission := by
  cases phrase with
  | label names follows block =>
      obtain ⟨opening, trace, derived, -, same⟩ := block.trace
      exact ⟨_, .label names follows derived, .label same⟩
  | statement phrase =>
      obtain ⟨trace, derived, same⟩ := phrase.trace
      exact ⟨_, .statement derived, .statement same⟩

theorem ItemTrace.phrase {tokens : List Lexeme} {emission : Emission}
    (derived : ItemTrace tokens emission) : ∃ item, ItemPhrase tokens item ∧ Adds item emission := by
  cases derived with
  | label names follows block =>
      obtain ⟨body, phrase, -, same⟩ := block.phrase
      exact ⟨_, .label names follows phrase, .label same⟩
  | statement derived =>
      obtain ⟨entry, phrase, same⟩ := derived.phrase
      exact ⟨_, .statement phrase, .statement same⟩

/-- What every phrase of a sort has in another sort, a row of phrases has one by one. -/
theorem Phrases.convert {α β : Type} {phrase : List Lexeme → α → Prop}
    {other : List Lexeme → β → Prop} {fits : α → β → Prop}
    (each : ∀ tokens tree, phrase tokens tree → ∃ image, other tokens image ∧ fits tree image)
    {tokens : List Lexeme} {trees : List α} (phrases : Phrases phrase tokens trees) :
    ∃ images, Phrases other tokens images ∧ List.Forall₂ fits trees images := by
  induction phrases with
  | nil => exact ⟨[], .nil, .nil⟩
  | cons head _ inductionHypothesis =>
      obtain ⟨image, first, fit⟩ := each _ _ head
      obtain ⟨images, others, fits⟩ := inductionHypothesis
      exact ⟨image :: images, .cons first others, .cons fit fits⟩

theorem ProgramPhrase.emissions {tokens : List Lexeme} {program : Program}
    (phrase : ProgramPhrase tokens program) :
    ∃ emissions, Phrases ItemTrace tokens emissions ∧
      List.Forall₂ Adds program.items emissions :=
  Phrases.convert (fun _ _ phrase => ItemPhrase.trace phrase) phrase

theorem program_of_emissions {tokens : List Lexeme} {emissions : List Emission}
    (derived : Phrases ItemTrace tokens emissions) :
    ∃ program, ProgramPhrase tokens program ∧ List.Forall₂ Adds program.items emissions := by
  have converted : ∃ items, Phrases ItemPhrase tokens items ∧
      List.Forall₂ (fun emission item => Adds item emission) emissions items :=
    Phrases.convert (fun _ _ item => ItemTrace.phrase item) derived
  obtain ⟨items, phrases, adds⟩ := converted
  exact ⟨⟨items⟩, phrases, adds.flip⟩

theorem mainCode_of_adds {items : List Item} {emissions : List Emission}
    (adds : List.Forall₂ Adds items emissions) :
    items.flatMap Item.mainCode = Trace.code (emissions.flatMap Emission.mainTrace) := by
  induction adds with
  | nil => rfl
  | cons head _ inductionHypothesis =>
      cases head with
      | statement same =>
          simp [Item.mainCode, Emission.mainTrace, same, inductionHypothesis]
      | label => exact inductionHypothesis

/-- Of a label, the first definition among some items has the code of the first body among what they
add. -/
theorem bodyCode_of_adds (name : String) {items : List Item} {emissions : List Emission}
    (adds : List.Forall₂ Adds items emissions) :
    ((Program.labels ⟨items⟩).find? fun definition => definition.name = name).map
        (fun definition => definition.body.code) =
      (emissions.findSome? (Emission.bodyOf? name)).map Trace.code := by
  induction adds with
  | nil => rfl
  | @cons _ _ others _ head _ inductionHypothesis =>
      cases head with
      | statement => exact inductionHypothesis
      | @label definition trace same =>
          have labels : Program.labels ⟨.label definition :: others⟩ =
              definition :: Program.labels ⟨others⟩ := rfl
          rw [labels, List.find?_cons, List.findSome?_cons, Emission.bodyOf?]
          by_cases named : definition.name = name
          · simp [named, same]
          · simpa [named] using inductionHypothesis

/-- The sequences of an executable are the code of the routines' traces. -/
theorem Program.sequence?_of_adds {program : Program} {emissions : List Emission}
    (adds : List.Forall₂ Adds program.items emissions) (routine : Routine) :
    program.executable.sequence? routine =
      (Emission.trace? emissions routine).map fun trace => .ofCode (Trace.code trace) := by
  cases routine with
  | main => exact congrArg (some ∘ Sequence.ofCode) (mainCode_of_adds adds)
  | label name =>
      have last := bodyCode_of_adds name (List.forall₂_reverse_iff.mpr adds)
      have reversed : Program.labels ⟨program.items.reverse⟩ = program.labels.reverse :=
        List.filterMap_reverse
      have lowered := congrArg (Option.map Sequence.ofCode) last
      rw [Option.map_map, Option.map_map, reversed] at lowered
      rw [Executable.sequence?, labels_get?, body?, Option.map_map]
      exact lowered

/-- Whichever traces the tokens of a text have, its executable has their instructions and lines. -/
theorem sequence?_of_compile {text : List Char} {executable : Executable}
    (compiled : (Buffer.ofText text).compile = .ok executable) {emissions : List Emission}
    (derived : Phrases ItemTrace (tokensOf text).1 emissions) (routine : Routine) :
    executable.sequence? routine =
      (Emission.trace? emissions routine).map fun trace => .ofCode (Trace.code trace) := by
  obtain ⟨program, parsed, rfl⟩ := Buffer.parse_of_compile compiled
  obtain ⟨other, phrase, adds⟩ := program_of_emissions derived
  rcases parse_of_phrase (accepted_of_parse parsed).lexes phrase with same | ⟨⟨error, refused⟩, -⟩
  · obtain rfl := Except.ok.inj (same.symm.trans parsed)
    exact Program.sequence?_of_adds adds routine
  · rw [parsed] at refused
    contradiction

theorem emissions_of_compile {text : List Char} {executable : Executable}
    (compiled : (Buffer.ofText text).compile = .ok executable) :
    ∃ emissions, Phrases ItemTrace (tokensOf text).1 emissions := by
  obtain ⟨program, parsed, -⟩ := Buffer.parse_of_compile compiled
  obtain ⟨emissions, derived, -⟩ := (accepted_of_parse parsed).phrase.emissions
  exact ⟨emissions, derived⟩

/-- Every instruction of a routine has an entry in the routine's trace, and the line of its token. -/
theorem entry_of_compile {text : List Char} {executable : Executable}
    (compiled : (Buffer.ofText text).compile = .ok executable) {emissions : List Emission}
    (derived : Phrases ItemTrace (tokensOf text).1 emissions) {routine : Routine}
    {instructions : Array Instruction}
    (found : executable.instructions? routine = some instructions) {index : Nat}
    (within : index < instructions.size) :
    ∃ entries entry, Emission.trace? emissions routine = some entries ∧
      entries[index]? = some entry ∧
      executable.sourceLine? routine index = some entry.2.line := by
  have sequence := sequence?_of_compile compiled derived routine
  rw [Executable.instructions?, sequence, Option.map_map] at found
  obtain ⟨entries, traced, rfl⟩ := Option.map_eq_some_iff.mp found
  have bound : index < entries.length := by
    simpa [Sequence.ofCode, Trace.code] using within
  refine ⟨entries, entries[index], traced, List.getElem?_eq_getElem bound, ?_⟩
  rw [Executable.sourceLine?, sequence, traced]
  simp [Sequence.ofCode, Trace.code, bound]

/-- Lowering a text yields the instructions that its tokens stand for, and the source line of each is
the line of the token that the instruction comes from. Every instruction of a routine has a line, and
nothing else has one. -/
theorem lines_of_origins (text : List Char) (executable : Executable)
    (compiled : (Buffer.ofText text).compile = .ok executable) :
    (∃ emissions, Phrases ItemTrace (tokensOf text).1 emissions) ∧
      (∀ emissions, Phrases ItemTrace (tokensOf text).1 emissions → ∀ routine,
        executable.instructions? routine =
            (Emission.trace? emissions routine).map (fun trace => (trace.map Prod.fst).toArray) ∧
          ∀ index, executable.sourceLine? routine index =
            ((Emission.trace? emissions routine).bind fun entries => entries[index]?).map
              fun entry => entry.2.line) ∧
      ∀ routine index, (executable.sourceLine? routine index).isSome = true ↔
        ∃ instructions, executable.instructions? routine = some instructions ∧
          index < instructions.size := by
  obtain ⟨emissions, derived⟩ := emissions_of_compile compiled
  refine ⟨⟨emissions, derived⟩, ?_, ?_⟩
  · intro emissions derived routine
    have sequence := sequence?_of_compile compiled derived routine
    constructor
    · rw [Executable.instructions?, sequence, Option.map_map]
      simp [Function.comp_def, Sequence.ofCode, Trace.code]
    · intro index
      rw [Executable.sourceLine?, sequence]
      cases Emission.trace? emissions routine <;>
        simp [Sequence.ofCode, Trace.code, Function.comp_def]
  · intro routine index
    rw [Executable.instructions?, Executable.sourceLine?, sequence?_of_compile compiled derived]
    cases Emission.trace? emissions routine <;> simp [Sequence.ofCode]

/-- A branch whose else block begins on the second line. -/
def branchText : List Char :=
  "if (true) \x7b\x7d else\n\x7b\x7d".toList

/-- The jump behind the then branch is the last instruction, and it has the line of the brace. -/
theorem lines_of_origins_branchText :
    ∃ executable emissions, (Buffer.ofText branchText).compile = .ok executable ∧
      Phrases ItemTrace (tokensOf branchText).1 emissions ∧
      executable.main = ⟨#[.push (.boolean true), .duplicate, .compare .negation, .jumpIf 0,
        .jumpIf 0], #[1, 1, 1, 1, 2]⟩ ∧
      ((Emission.trace? emissions .main).bind fun entries => entries[4]?).map
        (fun entry => entry.2.line) = some 2 := by
  have checked : (Buffer.ofText branchText).compile.toOption.map Executable.main =
      some ⟨#[.push (.boolean true), .duplicate, .compare .negation, .jumpIf 0, .jumpIf 0],
        #[1, 1, 1, 1, 2]⟩ := by
    decide +kernel
  cases compiled : (Buffer.ofText branchText).compile with
  | error error =>
      rw [compiled] at checked
      contradiction
  | ok executable =>
      rw [compiled] at checked
      have main := Option.some.inj checked
      obtain ⟨⟨emissions, derived⟩, origins, -⟩ := lines_of_origins branchText executable compiled
      have last := (origins emissions derived .main).2 4
      rw [Executable.sourceLine?, Executable.sequence?, Option.bind_some, main] at last
      exact ⟨executable, emissions, rfl, derived, main, last.symm⟩

end TapeMachine
