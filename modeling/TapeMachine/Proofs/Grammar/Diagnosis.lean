import TapeMachine.Proofs.Grammar.Explanation
import TapeMachine.Proofs.Grammar.Language

/-!
Contract: a syntax error names the first token that is wrong.

Owns: the explanation of the errors of every production, for any visible labels, and the place of
the error of a text.

Levels and repetitions have to reach the number of tokens that are ahead. With fewer of them a
production would refuse tokens that it begins with, and blame the wrong ones.
-/

open scoped Computability

namespace TapeMachine

/-! ## Expressions -/

namespace Grammar

variable {tokens : List Lexeme} {ending : Option LexError} {place : Place}
  {after : Language Lexeme}

/-- A step explains its errors wherever a sequence of the language is expected next and at most a
number of tokens are ahead. -/
def Serves {α : Type} (tokens : List Lexeme) (ending : Option LexError) (step : Parse (Option α))
    (language : Language Lexeme) (levels : Nat) : Prop :=
  ∀ place after, place.ahead.length ≤ levels → Stands tokens place (language * after) →
    Explains tokens ending step place
      (Delivers tokens place language after (Stuck (language * after) place.ahead))

theorem Serves.mono {α : Type} {step : Parse (Option α)} {language : Language Lexeme}
    {levels limit : Nat} (serves : Serves tokens ending step language limit)
    (below : levels ≤ limit) : Serves tokens ending step language levels :=
  fun place after short stands => serves place after (Nat.le_trans short below) stands

theorem explains_negation {operand : Parse (Option Expression)} {levels : Nat}
    (serves : Serves tokens ending operand expressionTokens levels)
    (short : place.ahead.length ≤ levels + 1)
    (stands : Stands tokens place (expressionTokens * after)) :
    Explains tokens ending (negation operand) place
      (Offer tokens place after (Refuses (only (.symbol .bang)) place.ahead)) := by
  apply Explains.production
  intro sign next choice ahead selected
  have kind := only_eq_some.mp selected
  have inner := stands.past ahead id fun _ => expression_behind_bang kind
  have breaksOff : BreaksOff tokens next.ahead sign .operand :=
    stands.breaksOff [] ahead (by simp [Missing.begun, kind])
  simp only [ahead, List.length_cons] at short
  apply Explains.bind (.require (serves _ _ (by omega) inner) inner breaksOff)
  rintro tree behind ⟨behindOperand, -⟩
  apply Explains.bind (.checkType (stands.mem ahead))
  rintro _ _ rfl
  exact Explains.pure behindOperand

theorem explains_binary {operand : Parse (Option Expression)} {levels : Nat}
    (serves : Serves tokens ending operand expressionTokens levels)
    (short : place.ahead.length ≤ levels + 1)
    (stands : Stands tokens place (expressionTokens * after)) :
    Explains tokens ending (binary operand) place
      (Offer tokens place after (Refuses binaryOperator place.ahead)) := by
  apply Explains.production
  intro sign next op ahead selected
  have kind := binaryOperator_eq_some.mp selected
  have left := stands.past ahead (by simp) fun _ => expression_behind_operator kind
  have breaksOffLeft : BreaksOff tokens next.ahead sign .leftOperand :=
    stands.breaksOff [] ahead (by simp [Missing.begun, kind])
  simp only [ahead, List.length_cons] at short
  apply Explains.bind (.require (serves _ _ (by omega) left) left breaksOffLeft)
  rintro leftTree middle ⟨right, first, memberFirst, splitFirst⟩
  have breaksOffRight : BreaksOff tokens middle.ahead sign .rightOperand :=
    stands.breaksOff first (by simp [ahead, splitFirst])
      (by simp [Missing.begun, kind, memberFirst])
  simp only [splitFirst, List.length_append] at short
  apply Explains.bind (.require (serves _ _ (by omega) right) right breaksOffRight)
  rintro rightTree behind ⟨behindOperands, -⟩
  apply Explains.bind (.checkType (stands.mem ahead))
  rintro _ _ rfl
  cases op.isLogical with
  | false => exact Explains.pure behindOperands
  | true =>
      simp only [↓reduceIte]
      apply Explains.bind (.checkType (stands.mem ahead))
      rintro _ _ rfl
      exact Explains.pure behindOperands

theorem explains_nested {inner : Parse (Option Expression)} {levels : Nat}
    (serves : Serves tokens ending inner expressionTokens levels)
    (short : place.ahead.length ≤ levels + 1)
    (stands : Stands tokens place (expressionTokens * after)) :
    Explains tokens ending (nested inner) place
      (Offer tokens place after (Refuses (only (.symbol .openParen)) place.ahead)) := by
  apply Explains.production
  intro sign next choice ahead selected
  have kind := only_eq_some.mp selected
  have inside := stands.past ahead (by simp) fun _ => expression_behind_opening kind
  have breaksOff : BreaksOff tokens next.ahead sign .nestedExpression :=
    stands.breaksOff [] ahead (by simp [Missing.begun, kind])
  simp only [ahead, List.length_cons] at short
  apply Explains.bind (.require (serves _ _ (by omega) inside) inside breaksOff)
  rintro tree middle ⟨closes, used, member, split⟩
  have breaksOffClosing : BreaksOff tokens middle.ahead sign .nestedClosing :=
    stands.breaksOff used (by simp [ahead, split]) (by simp [Missing.begun, kind, member])
  apply Explains.bind (.expect closes breaksOffClosing)
  rintro closing behind ⟨-, -, behindClosing⟩
  exact Explains.pure behindClosing

theorem explains_readGlyph (stands : Stands tokens place (expressionTokens * after)) :
    Explains tokens ending readGlyph place
      (Offer tokens place after (Refuses readSign place.ahead)) := by
  apply Explains.production
  intro sign next choice ahead selected
  have kind := readSign_eq_some.mp selected
  exact Explains.pure (stands.past ahead (by simp) fun _ => expression_behind_read kind)

theorem not_isSyntax_of_literalValue {literal : LiteralKind} {text : List Char} {cause : ParseCause}
    (read : literalValue literal text = .error cause) : ¬ cause.IsSyntax := by
  have causes : cause = .malformedCharacter ∨ cause = .integerOutOfRange := by
    cases literal with
    | character =>
        simp only [literalValue] at read
        split at read
        · simp at read
        · exact .inl (Except.error.inj read).symm
    | integer =>
        simp only [literalValue] at read
        split at read
        · split at read
          · simp at read
          · exact .inr (Except.error.inj read).symm
        · exact .inr (Except.error.inj read).symm
    | truth value => simp [literalValue] at read
  rcases causes with rfl | rfl <;> simp [ParseCause.IsSyntax]

theorem explains_literal (stands : Stands tokens place (expressionTokens * after)) :
    Explains tokens ending literal place
      (Offer tokens place after (Refuses literalKind place.ahead)) := by
  apply Explains.production
  intro lexeme next choice ahead selected
  have kind := literalKind_eq_some.mp selected
  cases read : literalValue choice lexeme.text.toList with
  | error cause => exact Explains.check (stands.mem ahead) (not_isSyntax_of_literalValue read)
  | ok value =>
      obtain ⟨denotes, -⟩ := denotes_of_literalValue kind read
      exact Explains.pure (stands.past ahead (by simp) fun _ => expression_behind_literal denotes)

/-- No expression begins with a token that all of its productions refuse. -/
theorem stuck_expression {ahead : List Lexeme} (noBang : Refuses (only (.symbol .bang)) ahead)
    (noOperator : Refuses binaryOperator ahead)
    (noOpening : Refuses (only (.symbol .openParen)) ahead) (noRead : Refuses readSign ahead)
    (noLiteral : Refuses literalKind ahead) : Stuck (expressionTokens * after) ahead := by
  refine stuck_of (by simp) ?_
  intro lexeme member others inside
  rw [cons_mem_expressionTokens_mul] at inside
  rcases inside with ⟨kind, -⟩ | ⟨⟨op, kind⟩, -⟩ | ⟨kind, -⟩ | ⟨kind | ⟨value, denotes⟩, -⟩
  · simpa [only, kind] using noBang lexeme member
  · simpa [binaryOperator_eq_some.mpr kind] using noOperator lexeme member
  · simpa [only, kind] using noOpening lexeme member
  · have reads : readSign lexeme.kind = some () := readSign_eq_some.mpr kind
    simpa [reads] using noRead lexeme member
  · have kinds := denotes.kind_mem
    simp only [List.mem_cons, List.not_mem_nil, or_false] at kinds
    rcases kinds with kind | kind | kind | kind <;>
      simpa [literalKind, kind] using noLiteral lexeme member

theorem refuses_nil {β : Type} {select : Kind → Option β} : Refuses select [] := by
  simp [Refuses]

/-- What a step finds tells what has been read when it explains its errors. -/
theorem delivers {α : Type} {step : Parse (Option α)} {language : Language Lexeme}
    {phrase : Environment (Option Block) → List Lexeme → α → Prop} {refused : Prop}
    (explains : Explains tokens ending step place (Offer tokens place after refused))
    (finds : Finds ending step phrase)
    (sound : ∀ labels used tree, phrase labels used tree → used ∈ language) :
    Explains tokens ending step place (Delivers tokens place language after refused) := by
  refine (explains.and_ensures (finds place)).mono ?_
  rintro result behind ⟨offered, found⟩
  cases result with
  | none => exact offered
  | some tree =>
      obtain ⟨used, split, -, phrase⟩ := found
      exact ⟨offered, used, sound _ _ _ phrase, split⟩

theorem serves_expression (levels : Nat) :
    Serves tokens ending (expression levels) expressionTokens levels := by
  induction levels with
  | zero =>
      intro place after short stands
      have finished : place.ahead = [] := List.length_eq_zero_iff.mp (Nat.le_zero.mp short)
      refine Explains.pure ⟨rfl, ?_⟩
      rw [finished]
      exact stuck_expression refuses_nil refuses_nil refuses_nil refuses_nil refuses_nil
  | succ levels inductionHypothesis =>
      intro place after short stands
      have chosen : Explains tokens ending (expression (levels + 1)) place
          (Offer tokens place after (Stuck (expressionTokens * after) place.ahead)) := by
        refine .firstOf_cons (explains_negation inductionHypothesis short stands) fun noBang => ?_
        refine .firstOf_cons (explains_binary inductionHypothesis short stands) fun noOperator => ?_
        refine .firstOf_cons (explains_nested inductionHypothesis short stands) fun noOpening => ?_
        refine .firstOf_cons (explains_readGlyph stands) fun noRead => ?_
        refine .firstOf_cons (explains_literal stands) fun noLiteral => ?_
        exact .firstOf_nil (stuck_expression noBang noOperator noOpening noRead noLiteral)
      exact delivers chosen (finds_expression (levels + 1)) fun _ _ _ admitted =>
        admitted.phrase.mem

/-! ## Statements and blocks -/

/-- A step explains its errors wherever a statement may stand and at most a number of tokens are
ahead. -/
def ServesRow (tokens : List Lexeme) (ending : Option LexError)
    (statement : Parse (Option Statement)) (levels : Nat) : Prop :=
  ∀ place row, place.ahead.length ≤ levels → StatementRow row → Stands tokens place row →
    Explains tokens ending statement place
      (Delivers tokens place statementTokens row (Idle place.ahead))

section Statements

variable {expression : Parse (Option Expression)} {block : Parse (Option Block)} {levels : Nat}
  {row : Language Lexeme}

theorem explains_semicolon {earlier : Lexeme}
    (stands : Stands tokens place (ofKind (.symbol .semicolon) * row))
    (breaksOff : BreaksOff tokens place.ahead earlier .semicolon) :
    Explains tokens ending (semicolon earlier) place fun _ behind => Stands tokens behind row := by
  apply Explains.bind (.expect stands breaksOff)
  rintro final behind ⟨-, -, behindFinal⟩
  exact Explains.pure behindFinal

theorem explains_emptyStatement (isRow : StatementRow row) (stands : Stands tokens place row) :
    Explains tokens ending emptyStatement place
      (Offer tokens place row (Refuses (only (.symbol .semicolon)) place.ahead)) := by
  apply Explains.production
  intro sign next choice ahead selected
  have kind := only_eq_some.mp selected
  exact Explains.pure (stands.past ahead id fun _ => isRow.behind_semicolon kind)

/-- A word, an expression of some type and a semicolon. -/
theorem explains_operand {word : Lexeme} {part : Missing} {wanted : ValueType}
    {mismatch : ValueType → TypeMismatch} {build : Expression → Statement} {next : Place}
    (serves : Serves tokens ending expression expressionTokens levels)
    (short : next.ahead.length ≤ levels) (stands : Stands tokens place row)
    (ahead : place.ahead = word :: next.ahead)
    (inner : Stands tokens next (expressionTokens * (ofKind (.symbol .semicolon) * row)))
    (lacks : [word] ∈ part.begun)
    (lacksFinal : ∀ used ∈ expressionTokens, word :: used ∈ Missing.semicolon.begun) :
    Explains tokens ending (do
      let operand ← require expression word part
      checkType operand.type wanted word (mismatch operand.type)
      semicolon word
      return build operand) next fun _ behind => Stands tokens behind row := by
  apply Explains.bind (.require (serves _ _ short inner) inner (stands.breaksOff [] ahead lacks))
  rintro operand middle ⟨ends, used, member, split⟩
  have breaksOff : BreaksOff tokens middle.ahead word .semicolon :=
    stands.breaksOff used (by simp [ahead, split]) (lacksFinal used member)
  apply Explains.bind (.checkType (stands.mem ahead))
  rintro _ _ rfl
  apply Explains.bind (explains_semicolon ends breaksOff)
  rintro _ behind behindFinal
  exact Explains.pure behindFinal

theorem explains_moveStatement (serves : Serves tokens ending expression expressionTokens levels)
    (short : place.ahead.length ≤ levels + 1) (isRow : StatementRow row)
    (stands : Stands tokens place row) :
    Explains tokens ending (moveStatement expression) place
      (Offer tokens place row (Refuses moveDirection place.ahead)) := by
  apply Explains.production
  intro word next direction ahead selected
  have member := moveDirection_eq_some.mp selected
  have kind : ∃ direction : Direction, word.kind ∈ direction.kinds := ⟨direction, member⟩
  have inner := stands.past ahead (by simp) fun _ => isRow.behind_direction member
  simp only [ahead, List.length_cons] at short
  refine explains_operand serves (by omega) stands ahead inner (by simp [Missing.begun, kind]) ?_
  intro used memberUsed
  simp [-add_eq_sup, Missing.begun, Language.mem_add, kind, memberUsed]

theorem explains_writeStatement (serves : Serves tokens ending expression expressionTokens levels)
    (short : place.ahead.length ≤ levels + 1) (isRow : StatementRow row)
    (stands : Stands tokens place row) :
    Explains tokens ending (writeStatement expression) place
      (Offer tokens place row (Refuses (only (.keyword .writeWord)) place.ahead)) := by
  apply Explains.production
  intro word next choice ahead selected
  have kind := only_eq_some.mp selected
  have inner := stands.past ahead (by simp) fun _ => isRow.behind_write kind
  simp only [ahead, List.length_cons] at short
  refine explains_operand serves (by omega) stands ahead inner (by simp [Missing.begun, kind]) ?_
  intro used memberUsed
  simp [-add_eq_sup, Missing.begun, Language.mem_add, kind, memberUsed]

theorem explains_gotoStatement (isRow : StatementRow row) (stands : Stands tokens place row) :
    Explains tokens ending gotoStatement place
      (Offer tokens place row (Refuses (only (.keyword .gotoWord)) place.ahead)) := by
  apply Explains.production
  intro word next choice ahead selected
  have kind := only_eq_some.mp selected
  have inner := stands.past ahead (by simp) fun _ => isRow.behind_goto kind
  have breaksOff : BreaksOff tokens next.ahead word .gotoLabel :=
    stands.breaksOff [] ahead (by simp [Missing.begun, kind])
  apply Explains.bind (.expect inner breaksOff)
  rintro label middle ⟨names, split, ends⟩
  refine Meets.bind (Meets.labels ?_)
  intro parser visible
  dsimp only
  split
  · have breaksOffFinal : BreaksOff tokens middle.ahead word .semicolon :=
      stands.breaksOff [label] (by simp [ahead, split])
        (by simp [-add_eq_sup, Missing.begun, Language.mem_add, kind, names])
    apply Explains.bind (explains_semicolon ends breaksOffFinal)
    rintro _ behind behindFinal
    exact Explains.pure behindFinal
  · exact Explains.check (inner.mem split) (by simp [ParseCause.IsSyntax])

theorem explains_haltStatement (isRow : StatementRow row) (stands : Stands tokens place row) :
    Explains tokens ending haltStatement place
      (Offer tokens place row (Refuses (only (.keyword .haltWord)) place.ahead)) := by
  apply Explains.production
  intro word next choice ahead selected
  have kind := only_eq_some.mp selected
  have inner := stands.past ahead (by simp) fun _ => isRow.behind_halt kind
  have breaksOff : BreaksOff tokens next.ahead word .semicolon :=
    stands.breaksOff [] ahead (by simp [-add_eq_sup, Missing.begun, Language.mem_add, kind])
  apply Explains.bind (explains_semicolon inner breaksOff)
  rintro _ behind behindFinal
  exact Explains.pure behindFinal

theorem explains_condition (serves : Serves tokens ending expression expressionTokens levels)
    (finds : Finds ending expression fun _ => AdmittedExpression)
    (short : place.ahead.length ≤ levels) {word : Lexeme} (known : word ∈ tokens)
    (stands : Stands tokens place (conditionTokens * after))
    (breaksOff : BreaksOff tokens place.ahead word .conditionOpening) :
    Explains tokens ending (condition expression word) place fun _ behind =>
      Stands tokens behind after ∧
        ∃ used ∈ conditionTokens, place.ahead = used ++ behind.ahead := by
  have explains : Explains tokens ending (condition expression word) place fun _ behind =>
      Stands tokens behind after := by
    rw [conditionTokens_eq, mul_assoc, mul_assoc] at stands
    apply Explains.bind (.expect stands breaksOff)
    rintro opening next ⟨begins, ahead, inner⟩
    have breaksOffTest : BreaksOff tokens next.ahead opening .condition :=
      stands.breaksOff [] ahead (by simp [Missing.begun, begins])
    simp only [ahead, List.length_cons] at short
    apply Explains.bind (.require (serves _ _ (by omega) inner) inner breaksOffTest)
    rintro test middle ⟨closes, used, member, split⟩
    have breaksOffClosing : BreaksOff tokens middle.ahead opening .conditionClosing :=
      stands.breaksOff used (by simp [ahead, split]) (by simp [Missing.begun, begins, member])
    apply Explains.bind (.checkType known)
    rintro _ _ rfl
    apply Explains.bind (.expect closes breaksOffClosing)
    rintro closing behind ⟨-, -, behindClosing⟩
    exact Explains.pure behindClosing
  refine (explains.and_ensures (ensures_condition finds word place)).mono ?_
  rintro test behind ⟨behindTest, used, split, -, admitted⟩
  exact ⟨behindTest, used, admitted.phrase.mem, split⟩

/-- A word, a condition and a block, and what follows them. -/
theorem explains_guarded {α : Type} {word : Lexeme} {part : Missing} {next : Place}
    {further : Expression → Block → Parse α} {good : α → Place → Prop}
    (serves : Serves tokens ending expression expressionTokens levels)
    (finds : Finds ending expression fun _ => AdmittedExpression)
    (servesBlock : Serves tokens ending block blockTokens levels)
    (short : next.ahead.length ≤ levels) (stands : Stands tokens place row)
    (ahead : place.ahead = word :: next.ahead)
    (inner : Stands tokens next (conditionTokens * (blockTokens * after)))
    (lacks : [word] ∈ Missing.conditionOpening.begun)
    (lacksBlock : ∀ used ∈ conditionTokens, word :: used ∈ part.begun)
    (explains : ∀ test body behind, behind.ahead.length ≤ levels → Stands tokens behind after →
      Explains tokens ending (further test body) behind good) :
    Explains tokens ending (do
      let test ← condition expression word
      let body ← require block word part
      further test body) next good := by
  apply Explains.bind (explains_condition serves finds short (stands.mem ahead) inner
    (stands.breaksOff [] ahead lacks))
  rintro test middle ⟨expectsBlock, used, member, split⟩
  have breaksOff : BreaksOff tokens middle.ahead word part :=
    stands.breaksOff used (by simp [ahead, split]) (lacksBlock used member)
  simp only [split, List.length_append] at short
  apply Explains.bind (.require (servesBlock _ _ (by omega) expectsBlock) expectsBlock breaksOff)
  rintro body behind ⟨behindBlock, tokensBlock, -, splitBlock⟩
  simp only [splitBlock, List.length_append] at short
  exact explains test body behind (by omega) behindBlock

theorem explains_elseBranch (serves : Serves tokens ending block blockTokens levels)
    (short : place.ahead.length ≤ levels + 1) (isRow : StatementRow row)
    (stands : Stands tokens place (otherwiseTokens * row)) :
    Explains tokens ending (elseBranch block) place fun _ behind => Stands tokens behind row := by
  have offer : Explains tokens ending (elseBranch block) place
      (Offer tokens place row (Refuses (only (.keyword .elseWord)) place.ahead)) := by
    apply Explains.production
    intro word next choice ahead selected
    have kind := only_eq_some.mp selected
    have inner := stands.past ahead (by simp) fun _ => isRow.behind_else kind
    have breaksOff : BreaksOff tokens next.ahead word .elseBlock :=
      stands.breaksOff [] ahead (by simp [Missing.begun, kind])
    simp only [ahead, List.length_cons] at short
    apply (Explains.require (serves _ _ (by omega) inner) inner breaksOff).mono
    exact fun _ _ found => found.1
  apply offer.mono
  intro result behind offered
  cases result with
  | some body => exact offered
  | none =>
      obtain ⟨rfl, refused⟩ := offered
      -- The branch could still be there as far as the tokens seen go; the next token excludes it.
      refine stands.narrow (by simp) (fun _ => mem_otherwiseTokens_mul) ?_
      intro others inside same
      cases others with
      | nil => exact (nil_mem_mul.mp inside).2
      | cons lexeme others =>
          rcases cons_mem_otherwiseTokens_mul.mp inside with ⟨kind, -⟩ | inRow
          · simpa [only, kind] using refused lexeme same.symm
          · exact inRow

theorem explains_ifStatement (serves : Serves tokens ending expression expressionTokens levels)
    (finds : Finds ending expression fun _ => AdmittedExpression)
    (servesBlock : Serves tokens ending block blockTokens levels)
    (short : place.ahead.length ≤ levels + 1) (isRow : StatementRow row)
    (stands : Stands tokens place row) :
    Explains tokens ending (ifStatement expression block) place
      (Offer tokens place row (Refuses (only (.keyword .ifWord)) place.ahead)) := by
  apply Explains.production
  intro word next choice ahead selected
  have kind := only_eq_some.mp selected
  have inner := stands.past ahead (by simp) fun _ => isRow.behind_if kind
  simp only [ahead, List.length_cons] at short
  refine explains_guarded serves finds servesBlock (by omega) stands ahead inner
    (by simp [-add_eq_sup, Missing.begun, Language.mem_add, kind]) ?_ ?_
  · exact fun used member => by simp [Missing.begun, kind, member]
  · intro test thenBody last shortLast otherwise
    apply Explains.bind (explains_elseBranch servesBlock (by omega) isRow otherwise)
    intro result behind behindElse
    cases result with
    | none => exact Explains.pure behindElse
    | some elseBody => exact Explains.pure behindElse

theorem explains_whileStatement (serves : Serves tokens ending expression expressionTokens levels)
    (finds : Finds ending expression fun _ => AdmittedExpression)
    (servesBlock : Serves tokens ending block blockTokens levels)
    (short : place.ahead.length ≤ levels + 1) (isRow : StatementRow row)
    (stands : Stands tokens place row) :
    Explains tokens ending (whileStatement expression block) place
      (Offer tokens place row (Refuses (only (.keyword .whileWord)) place.ahead)) := by
  apply Explains.production
  intro word next choice ahead selected
  have kind := only_eq_some.mp selected
  have inner := stands.past ahead (by simp) fun _ => isRow.behind_while kind
  simp only [ahead, List.length_cons] at short
  refine explains_guarded serves finds servesBlock (by omega) stands ahead inner
    (by simp [-add_eq_sup, Missing.begun, Language.mem_add, kind]) ?_ ?_
  · exact fun used member => by simp [Missing.begun, kind, member]
  · exact fun test body behind _ behindBlock => Explains.pure behindBlock

/-- A step that explains its errors does so when it is repeated. Each time it reads a token at
least. -/
theorem explains_many {α : Type} {step : Parse (Option α)} {language : Language Lexeme}
    {idle : List Lexeme → Prop} (nothing : idle []) (nonempty : [] ∉ language)
    (each : ∀ place, place.ahead.length ≤ levels → Stands tokens place row →
      Explains tokens ending step place (Delivers tokens place language row (idle place.ahead)))
    (limit : Nat) (short : place.ahead.length ≤ levels) (enough : place.ahead.length ≤ limit)
    (stands : Stands tokens place row) :
    Explains tokens ending (many step limit) place fun _ behind =>
      Stands tokens behind row ∧ idle behind.ahead ∧
        ∃ used ∈ language∗, place.ahead = used ++ behind.ahead := by
  induction limit generalizing place with
  | zero =>
      have finished : place.ahead = [] := List.length_eq_zero_iff.mp (Nat.le_zero.mp enough)
      exact Explains.pure ⟨stands, finished ▸ nothing, [], Language.nil_mem_kstar _, rfl⟩
  | succ limit inductionHypothesis =>
      apply Explains.bind (each place short stands)
      intro result behind delivered
      cases result with
      | none =>
          obtain ⟨rfl, refused⟩ := delivered
          exact Explains.pure ⟨stands, refused, [], Language.nil_mem_kstar _, rfl⟩
      | some tree =>
          obtain ⟨further, first, member, split⟩ := delivered
          have positive : 0 < first.length :=
            List.length_pos_iff.mpr fun empty => nonempty (empty ▸ member)
          simp only [split, List.length_append] at short enough
          apply Explains.bind (inductionHypothesis (by omega) (by omega) further)
          rintro trees final ⟨standsFinal, idleFinal, others, memberOthers, splitOthers⟩
          have row : language * language∗ ≤ language∗ := mul_kstar_le_kstar
          exact Explains.pure ⟨standsFinal, idleFinal, first ++ others,
            row (Language.append_mem_mul member memberOthers), by simp [split, splitOthers]⟩

theorem serves_block {statement : Parse (Option Statement)}
    (serves : ServesRow tokens ending statement levels)
    (finds : Finds ending statement AdmittedStatement) {limit : Nat} (enough : levels ≤ limit) :
    Serves tokens ending (Grammar.block statement limit) blockTokens levels := by
  intro place after short stands
  have offer : Explains tokens ending (Grammar.block statement limit) place
      (Offer tokens place after (Refuses (only (.symbol .openBrace)) place.ahead)) := by
    apply Explains.production
    intro opening next choice ahead selected
    have kind := only_eq_some.mp selected
    have inner : Stands tokens next (statementTokens∗ * (ofKind (.symbol .closeBrace) * after)) :=
      stands.past ahead (by simp) fun _ => by simp [blockTokens_eq, mul_assoc, kind]
    simp only [ahead, List.length_cons] at short
    apply Explains.bind .modifyLabels
    intro _ inside same
    rw [← same] at short
    apply Explains.bind (explains_many idle_nil nil_not_mem_statementTokens
      (fun place short stands => serves place _ short (row_block after) stands) limit (by omega)
      (by omega) (inner.of_ahead same))
    rintro statements middle ⟨standsMiddle, idle, used, member, split⟩
    have breaksOff : BreaksOff tokens middle.ahead opening .blockClosing :=
      stands.breaksOff used (by simp [ahead, ← same, split]) (by simp [Missing.begun, kind, member])
    apply Explains.bind .modifyLabels
    intro _ outside sameMiddle
    rw [← sameMiddle] at breaksOff idle
    have closes := (standsMiddle.of_ahead sameMiddle).closing idle
    apply Explains.bind (.expect closes breaksOff)
    rintro closing behind ⟨-, -, behindClosing⟩
    exact Explains.pure behindClosing
  have stuck (refused : Refuses (only (.symbol .openBrace)) place.ahead) :
      Stuck (blockTokens * after) place.ahead := by
    refine stuck_of (by simp) fun lexeme member others inside => ?_
    rw [blockTokens_eq, mul_assoc, cons_mem_ofKind_mul] at inside
    simpa [only, inside.1] using refused lexeme member
  exact delivers (offer.mono fun _ _ offered => offered.weaken stuck) (finds_block finds limit)
    fun _ _ _ admitted => admitted.phrase.mem

theorem idle_of_refuses {ahead : List Lexeme} (noEmpty : Refuses (only (.symbol .semicolon)) ahead)
    (noMove : Refuses moveDirection ahead) (noWrite : Refuses (only (.keyword .writeWord)) ahead)
    (noGoto : Refuses (only (.keyword .gotoWord)) ahead)
    (noIf : Refuses (only (.keyword .ifWord)) ahead)
    (noWhile : Refuses (only (.keyword .whileWord)) ahead)
    (noHalt : Refuses (only (.keyword .haltWord)) ahead) : Idle ahead := by
  have refuted {wanted : Kind} (refused : Refuses (only wanted) ahead) (lexeme : Lexeme)
      (member : lexeme ∈ ahead.head?) : lexeme.kind ∉ [wanted] := by
    intro same
    simpa [only, List.mem_singleton.mp same] using refused lexeme member
  rintro lexeme member ⟨statement, begins⟩
  cases statement with
  | empty line => exact refuted noEmpty lexeme member begins
  | move direction distance line =>
      have moves : moveDirection lexeme.kind = some direction := moveDirection_eq_some.mpr begins
      simpa [moves] using noMove lexeme member
  | write value line => exact refuted noWrite lexeme member begins
  | goto label line => exact refuted noGoto lexeme member begins
  | ifThen condition body line => exact refuted noIf lexeme member begins
  | ifElse condition thenBody elseBody line => exact refuted noIf lexeme member begins
  | whileLoop condition body line => exact refuted noWhile lexeme member begins
  | halt line => exact refuted noHalt lexeme member begins

theorem serves_statement {limit : Nat} (levels : Nat) (enough : levels ≤ limit) :
    ServesRow tokens ending (statement limit levels) levels := by
  induction levels with
  | zero =>
      intro place row short isRow stands
      have finished : place.ahead = [] := List.length_eq_zero_iff.mp (Nat.le_zero.mp short)
      exact Explains.pure ⟨rfl, finished ▸ idle_nil⟩
  | succ levels inductionHypothesis =>
      intro place row short isRow stands
      have below : levels ≤ limit := Nat.le_of_succ_le enough
      have finds : Finds ending (Grammar.expression limit) fun _ => AdmittedExpression :=
        finds_expression limit
      have serves : Serves tokens ending (Grammar.expression limit) expressionTokens levels :=
        (serves_expression limit).mono below
      have servesBlock :=
        serves_block (inductionHypothesis below) (finds_statement limit levels) below
      have chosen : Explains tokens ending (statement limit (levels + 1)) place
          (Offer tokens place row (Idle place.ahead)) := by
        refine .firstOf_cons (explains_emptyStatement isRow stands) fun noEmpty => ?_
        refine .firstOf_cons (explains_moveStatement serves short isRow stands) fun noMove => ?_
        refine .firstOf_cons (explains_writeStatement serves short isRow stands) fun noWrite => ?_
        refine .firstOf_cons (explains_gotoStatement isRow stands) fun noGoto => ?_
        refine .firstOf_cons
          (explains_ifStatement serves finds servesBlock short isRow stands) fun noIf => ?_
        refine .firstOf_cons
          (explains_whileStatement serves finds servesBlock short isRow stands) fun noWhile => ?_
        refine .firstOf_cons (explains_haltStatement isRow stands) fun noHalt => ?_
        exact .firstOf_nil (idle_of_refuses noEmpty noMove noWrite noGoto noIf noWhile noHalt)
      exact delivers chosen (finds_statement limit (levels + 1)) fun _ _ _ admitted =>
        admitted.phrase.mem

end Statements

/-! ## Items and programs -/

theorem explains_labelDefinition {block : Parse (Option Block)} {levels : Nat}
    (serves : Serves tokens ending block blockTokens levels)
    (short : place.ahead.length ≤ levels + 1) (stands : Stands tokens place programTokens) :
    Explains tokens ending (labelDefinition block) place
      (Offer tokens place programTokens (Refuses (only .identifier) place.ahead)) := by
  apply Explains.production
  intro name next choice ahead selected
  have kind := only_eq_some.mp selected
  have inner := stands.past ahead (by simp) fun _ => program_behind_name kind
  have breaksOffColon : BreaksOff tokens next.ahead name .labelColon :=
    stands.breaksOff [] ahead (by simp [Missing.begun, kind])
  apply Explains.bind (.expect inner breaksOffColon)
  rintro colon middle ⟨follows, split, expectsBlock⟩
  have breaksOffBlock : BreaksOff tokens middle.ahead name .labelBlock :=
    stands.breaksOff [colon] (by simp [ahead, split]) (by simp [Missing.begun, kind, follows])
  apply Explains.bind .modifyLabels
  intro _ inside same
  simp only [ahead, split, List.length_cons, ← same] at short
  rw [← same] at breaksOffBlock
  have standsInside := expectsBlock.of_ahead same
  apply Explains.bind (.require (serves _ _ (by omega) standsInside) standsInside breaksOffBlock)
  rintro body behind ⟨behindBlock, -⟩
  apply Explains.bind .modifyLabels
  intro _ outside sameBehind
  exact Explains.pure (behindBlock.of_ahead sameBehind)

/-- No token that an item begins with is ahead. -/
def NoItem (ahead : List Lexeme) : Prop :=
  Refuses (only .identifier) ahead ∧ Idle ahead

theorem noItem_nil : NoItem [] :=
  ⟨refuses_nil, idle_nil⟩

theorem stuck_program {ahead : List Lexeme} (noItem : NoItem ahead) (more : ahead ≠ []) :
    Stuck programTokens ahead := by
  intro others inside same
  cases others with
  | nil => exact more (List.head?_eq_none_iff.mp same.symm)
  | cons lexeme others =>
      rcases cons_mem_programTokens.mp inside with ⟨kind, -⟩ | further
      · simpa [only, kind] using noItem.1 lexeme same.symm
      · exact noItem.2 lexeme same.symm (opensStatement_of_cons_mem further)

theorem explains_item {limit : Nat} (short : place.ahead.length ≤ limit)
    (stands : Stands tokens place programTokens) :
    Explains tokens ending (item limit) place
      (Delivers tokens place itemTokens programTokens (NoItem place.ahead)) := by
  have serves : ServesRow tokens ending (statement limit limit) limit :=
    serves_statement limit (Nat.le_refl limit)
  have servesBlock := serves_block serves (finds_statement limit limit) (Nat.le_refl limit)
  have offer : Explains tokens ending (item limit) place
      (Offer tokens place programTokens (NoItem place.ahead)) := by
    apply Explains.bind (explains_labelDefinition servesBlock (by omega) stands)
    intro result behind offered
    cases result with
    | some definition => exact Explains.pure offered
    | none =>
        obtain ⟨rfl, noName⟩ := offered
        apply Explains.bind (serves behind programTokens short row_program stands)
        intro result final delivered
        cases result with
        | some entry => exact Explains.pure delivered.1
        | none => exact Explains.pure ⟨delivered.1, noName, delivered.2⟩
  refine (offer.and_ensures (ensures_item limit place)).mono ?_
  rintro result behind ⟨offered, found⟩
  cases result with
  | none => exact offered
  | some tree =>
      obtain ⟨used, split, -, phrase, -⟩ := found
      exact ⟨offered, used, phrase.mem, split⟩

/-- Every error of parsing comes from the tokens: it is at the first one that is wrong, or at an
earlier one of a production that the end of the input leaves unfinished, or a check has failed. -/
theorem explains_program {limit : Nat} (short : place.ahead.length ≤ limit)
    (stands : Stands tokens place programTokens) :
    Explains tokens ending (program limit) place fun _ _ => True := by
  apply Explains.bind (explains_many noItem_nil nil_not_mem_itemTokens
    (fun place short stands => explains_item short stands) limit short short stands)
  rintro items behind ⟨standsBehind, noItem, -⟩
  refine Meets.bind (Meets.hasLexeme ?_ ?_ fun _ _ ends => .lexical ends)
  · intro more
    simp only [↓reduceIte]
    refine Meets.bind (Meets.nextLexeme ?_ ?_ fun _ _ ends => .lexical ends)
    · intro lexeme others ahead
      exact Meets.fail (.of_stuck standsBehind (stuck_program noItem more) ahead (by simp))
    · exact fun _ _ => Explains.pure trivial
  · intro _ _
    simp only [Bool.false_eq_true, ↓reduceIte]
    exact Explains.pure trivial

end Grammar

/-! ## Texts -/

theorem explained_of_parse {text : List Char} {error : ParseError}
    (failed : (Buffer.ofText text).parse.1 = .error error) :
    Explained (tokensOf text).1 (tokensOf text).2 error := by
  obtain ⟨behind, -, explained⟩ := Grammar.explains_program (length_tokensOf_le text)
    (.start (tokensOf text).1 .empty) _ _ (parser_at_start text)
  rw [← parse_eq, failed] at explained
  exact explained

/-- A syntax error is at the first token with which the tokens are no beginning of a program any
more. If there is none because the input has run out, it is at the first token of the production
that is left unfinished. All other errors that are not lexical are at some token as well. -/
theorem syntax_error_at_first_wrong_token (text : List Char) (error : ParseError)
    (failed : (Buffer.ofText text).parse.1 = .error error) :
    (error.cause.IsSyntax → error.AtFirstWrong (tokensOf text).1 ∨
      (tokensOf text).2 = none ∧ error.AtUnfinished (tokensOf text).1) ∧
    (error.cause ≠ .lex → ∃ lexeme ∈ (tokensOf text).1, error = .atLexeme lexeme error.cause) := by
  cases explained_of_parse failed with
  | lexical ends => simp [ParseError.ofLexError, ParseCause.IsSyntax]
  | @check lexeme cause member other =>
      exact ⟨fun isSyntax => absurd isSyntax other, fun _ => ⟨lexeme, member, rfl⟩⟩
  | wrong placed =>
      refine ⟨fun _ => .inl placed, fun _ => ?_⟩
      obtain ⟨before, lexeme, after, split, same, -⟩ := placed
      exact ⟨lexeme, by simp [split], same⟩
  | ranOut ends placed =>
      refine ⟨fun _ => .inr ⟨ends, placed⟩, fun _ => ?_⟩
      obtain ⟨-, -, front, begun, earlier, part, split, first, rfl, -⟩ := placed
      have member : earlier ∈ begun := List.mem_of_mem_head? first
      exact ⟨earlier, by simp [split, member], rfl⟩

/-- The semicolon behind the only statement of the block is missing. -/
def unterminatedText : List Char :=
  "if (= ^ 'a') \x7bhalt\x7d".toList

theorem syntax_error_at_first_wrong_token_unterminatedText :
    ∃ error, (Buffer.ofText unterminatedText).parse.1 = .error error ∧
      error.cause = .missing .semicolon ∧
      (error.AtFirstWrong (tokensOf unterminatedText).1 ∨
        (tokensOf unterminatedText).2 = none ∧ error.AtUnfinished (tokensOf unterminatedText).1) ∧
      ∃ lexeme ∈ (tokensOf unterminatedText).1, error = .atLexeme lexeme error.cause := by
  have refused : (match (Buffer.ofText unterminatedText).parse.1 with
      | .ok _ => none
      | .error error => some error.cause) = some (.missing .semicolon) := by
    decide +kernel
  cases failed : (Buffer.ofText unterminatedText).parse.1 with
  | ok program =>
      rw [failed] at refused
      contradiction
  | error error =>
      rw [failed] at refused
      have cause : error.cause = .missing .semicolon := Option.some.inj refused
      obtain ⟨placed, known⟩ := syntax_error_at_first_wrong_token unterminatedText error failed
      exact ⟨error, rfl, cause, placed (.inr ⟨_, cause⟩), known (by simp [cause])⟩

end TapeMachine
