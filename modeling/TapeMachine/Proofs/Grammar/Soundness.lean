import TapeMachine.Grammar.Program
import TapeMachine.Proofs.Grammar.Production
import TapeMachine.Proofs.Grammar.Terminal
import TapeMachine.Proofs.Names.Scope

/-!
Contract: whatever a production yields is a phrase of the grammar and passes every check.

Owns: partial correctness of steps, what a production finds, and soundness of each production, for
any number of levels and any visible labels.

Does not own: that every phrase is found; `Proofs.Grammar.Completeness` does.
-/

namespace TapeMachine

/-! ## Partial correctness -/

/-- What holds behind a step unless it ends with an error. -/
def Ensures {α : Type} (ending : Option LexError) (step : Parse α) (place : Place)
    (good : α → Place → Prop) : Prop :=
  Meets ending step place fun result behind =>
    match result with
    | .ok value => good value behind
    | .error _ => True

namespace Ensures

open Grammar

variable {α β : Type} {ending : Option LexError} {place : Place}

theorem mono {step : Parse α} {weak strong : α → Place → Prop}
    (ensured : Ensures ending step place strong)
    (weaker : ∀ value behind, strong value behind → weak value behind) :
    Ensures ending step place weak :=
  Meets.mono ensured fun result behind met =>
    match result with
    | .ok value => weaker value behind met
    | .error _ => trivial

theorem pure {value : α} {good : α → Place → Prop} (result : good value place) :
    Ensures ending (Pure.pure value) place good :=
  Meets.pure result

theorem fail {lexeme : Lexeme} {cause : ParseCause} {good : α → Place → Prop} :
    Ensures ending (Grammar.fail lexeme cause) place good :=
  Meets.fail trivial

theorem bind {step : Parse α} {next : α → Parse β} {middle : α → Place → Prop}
    {good : β → Place → Prop} (first : Ensures ending step place middle)
    (second : ∀ value behind, middle value behind → Ensures ending (next value) behind good) :
    Ensures ending (step >>= next) place good :=
  Meets.bind (Meets.mono first fun result behind met =>
    match result with
    | .ok value => second value behind met
    | .error _ => trivial)

theorem nextLexeme {good : Option Lexeme → Place → Prop}
    (token : ∀ lexeme others, place.ahead = lexeme :: others →
      good (some lexeme) ⟨others, place.labels⟩)
    (finished : place.ahead = [] → ending = none → good none place) :
    Ensures ending Grammar.nextLexeme place good :=
  Meets.nextLexeme token finished fun _ _ _ => trivial

theorem failMissing {earlier : Lexeme} {part : Missing} {good : α → Place → Prop} :
    Ensures ending (Grammar.failMissing earlier part) place good := by
  have looked : Ensures ending Grammar.nextLexeme place fun _ _ => True :=
    nextLexeme (fun _ _ _ => trivial) fun _ _ => trivial
  exact bind looked fun _ _ _ => fail

theorem expect {kind : Kind} {earlier : Lexeme} {part : Missing} :
    Ensures ending (Grammar.expect kind earlier part) place fun lexeme behind =>
      lexeme.kind = kind ∧ place.ahead = lexeme :: behind.ahead ∧ behind.labels = place.labels := by
  refine Meets.bind (Meets.nextLexeme ?_ ?_ fun _ _ _ => trivial)
  · intro lexeme others ahead
    by_cases wanted : lexeme.kind = kind
    · simp only [wanted, ↓reduceIte]
      exact pure ⟨wanted, ahead, rfl⟩
    · simp only [wanted, ↓reduceIte]
      exact fail
  · intro _ _
    exact fail

theorem require {step : Parse (Option α)} {earlier : Lexeme} {part : Missing}
    {good : α → Place → Prop}
    (ensured : Ensures ending step place fun result behind =>
      ∀ value, result = some value → good value behind) :
    Ensures ending (Grammar.require step earlier part) place good := by
  apply bind ensured
  intro result behind found
  cases result with
  | none => exact failMissing
  | some value => exact pure (found value rfl)

theorem checkType {found wanted : ValueType} {lexeme : Lexeme} {mismatch : TypeMismatch} :
    Ensures ending (Grammar.checkType found wanted lexeme mismatch) place fun _ behind =>
      found = wanted ∧ behind = place := by
  unfold Grammar.checkType
  split
  · rename_i same
    exact pure ⟨same, rfl⟩
  · exact fail

theorem production {select : Kind → Option β} {body : Lexeme → β → Parse α}
    {good : Option α → Place → Prop}
    (begins : ∀ next sign choice, place.ahead = sign :: next.ahead → next.labels = place.labels →
      select sign.kind = some choice →
      Ensures ending (body sign choice) next fun value behind => good (some value) behind)
    (refuses : good none place) : Ensures ending (Grammar.production select body) place good := by
  refine Meets.production ?_ (fun _ => refuses) fun _ _ _ => trivial
  intro sign others choice ahead selected
  refine Meets.mono (begins ⟨others, place.labels⟩ sign choice ahead rfl selected) ?_
  intro result behind met
  cases result with
  | ok value => exact met
  | error error => trivial

end Ensures

/-! ## What a production finds -/

/-- The tokens between two places satisfy something; the visible labels are the same. -/
def Spends (place : Place) (used : List Lexeme → Prop) (behind : Place) : Prop :=
  ∃ tokens, place.ahead = tokens ++ behind.ahead ∧ behind.labels = place.labels ∧ used tokens

/-- Nothing, at the place where it began, or a tree whose tokens satisfy something under the
visible labels. -/
def Finds {α : Type} (ending : Option LexError) (step : Parse (Option α))
    (phrase : Environment (Option Block) → List Lexeme → α → Prop) : Prop :=
  ∀ place, Ensures ending step place fun result behind =>
    match result with
    | none => behind = place
    | some tree => Spends place (fun tokens => phrase place.labels tokens tree) behind

namespace Finds

open Grammar

variable {α β : Type} {ending : Option LexError}
  {phrase : Environment (Option Block) → List Lexeme → α → Prop}

theorem production {select : Kind → Option β} {body : Lexeme → β → Parse α}
    (begins : ∀ place next sign choice, place.ahead = sign :: next.ahead →
      next.labels = place.labels → select sign.kind = some choice →
      Ensures ending (body sign choice) next fun tree behind =>
        Spends place (fun tokens => phrase place.labels tokens tree) behind) :
    Finds ending (Grammar.production select body) phrase := by
  intro place
  exact Ensures.production (begins place) rfl

theorem firstOf {alternatives : List (Parse (Option α))}
    (each : ∀ alternative ∈ alternatives, Finds ending alternative phrase) :
    Finds ending (Grammar.firstOf alternatives) phrase := by
  induction alternatives with
  | nil => exact fun place => Ensures.pure rfl
  | cons first others inductionHypothesis =>
      intro place
      apply Ensures.bind (each first (by simp) place)
      intro result behind found
      cases result with
      | some tree => exact Ensures.pure found
      | none =>
          obtain rfl : behind = place := found
          exact inductionHypothesis (fun alternative member => each alternative (by simp [member]))
            behind

theorem require {step : Parse (Option α)} (finds : Finds ending step phrase) (place : Place)
    (earlier : Lexeme) (part : Missing) :
    Ensures ending (Grammar.require step earlier part) place fun tree behind =>
      Spends place (fun tokens => phrase place.labels tokens tree) behind := by
  refine Ensures.require ((finds place).mono ?_)
  rintro result behind found value rfl
  exact found

theorem many {step : Parse (Option α)} (finds : Finds ending step phrase) (limit : Nat)
    (place : Place) :
    Ensures ending (Grammar.many step limit) place fun trees behind =>
      Spends place (fun tokens => Phrases (phrase place.labels) tokens trees) behind := by
  induction limit generalizing place with
  | zero => exact Ensures.pure ⟨[], rfl, rfl, .nil⟩
  | succ limit inductionHypothesis =>
      apply Ensures.bind (finds place)
      intro result behind found
      cases result with
      | none =>
          obtain rfl : behind = place := found
          exact Ensures.pure ⟨[], rfl, rfl, .nil⟩
      | some tree =>
          rcases found with ⟨first, split, labels, head⟩
          apply Ensures.bind (inductionHypothesis behind)
          intro trees final found
          rcases found with ⟨others, splitOthers, labelsOthers, tail⟩
          refine Ensures.pure ⟨first ++ others, ?_, labelsOthers.trans labels, ?_⟩
          · rw [split, splitOthers, List.append_assoc]
          · exact .cons head (labels ▸ tail)

end Finds

/-! ## Expressions -/

/-- An expression that some tokens are, and that passes every check. -/
structure AdmittedExpression (tokens : List Lexeme) (expression : Expression) : Prop where
  phrase : ExpressionPhrase tokens expression
  typed : HasType expression expression.type
  range : AllInRange tokens

namespace Grammar

variable {ending : Option LexError}

theorem finds_negation {operand : Parse (Option Expression)}
    (finds : Finds ending operand fun _ => AdmittedExpression) :
    Finds ending (negation operand) fun _ => AdmittedExpression := by
  apply Finds.production
  intro place next sign choice ahead same selected
  have kind := only_eq_some.mp selected
  apply Ensures.bind (finds.require _ _ _)
  intro inner behind found
  rcases found with ⟨tokens, split, labels, admitted⟩
  apply Ensures.bind Ensures.checkType
  intro _ _ found
  rcases found with ⟨boolean, rfl⟩
  refine Ensures.pure ⟨sign :: tokens, ?_, labels.trans same, ?_⟩
  · rw [ahead, split]
    rfl
  · exact ⟨.negation kind admitted.phrase, .negation (boolean ▸ admitted.typed),
      allInRange_cons.mpr ⟨Lexeme.inRange_of_kind kind (by decide), admitted.range⟩⟩

theorem finds_binary {operand : Parse (Option Expression)}
    (finds : Finds ending operand fun _ => AdmittedExpression) :
    Finds ending (binary operand) fun _ => AdmittedExpression := by
  apply Finds.production
  intro place next sign op ahead same selected
  have kind := binaryOperator_eq_some.mp selected
  have range : sign.InRange := Lexeme.inRange_of_kind kind (by cases op <;> decide)
  apply Ensures.bind (finds.require _ _ _)
  intro left middle found
  rcases found with ⟨first, splitFirst, labelsFirst, admittedLeft⟩
  apply Ensures.bind (finds.require _ _ _)
  intro right behind found
  rcases found with ⟨second, splitSecond, labelsSecond, admittedRight⟩
  have split : place.ahead = sign :: (first ++ second) ++ behind.ahead := by
    rw [ahead, splitFirst, splitSecond]
    simp
  have labels := (labelsSecond.trans labelsFirst).trans same
  have phrase := ExpressionPhrase.binary kind admittedLeft.phrase admittedRight.phrase
  have allInRange : AllInRange (sign :: (first ++ second)) := by
    simp [range, admittedLeft.range, admittedRight.range]
  apply Ensures.bind Ensures.checkType
  intro _ _ found
  rcases found with ⟨agree, rfl⟩
  have rightType := agree ▸ admittedRight.typed
  cases isLogical : op.isLogical with
  | false =>
      simp only [Bool.false_eq_true, ↓reduceIte]
      exact Ensures.pure ⟨_, split, labels,
        phrase, .comparison isLogical admittedLeft.typed rightType, allInRange⟩
  | true =>
      simp only [↓reduceIte]
      apply Ensures.bind Ensures.checkType
      intro _ _ found
      rcases found with ⟨boolean, rfl⟩
      exact Ensures.pure ⟨_, split, labels, phrase,
        .logical isLogical (boolean ▸ admittedLeft.typed) (boolean ▸ rightType), allInRange⟩

theorem finds_nested {inner : Parse (Option Expression)}
    (finds : Finds ending inner fun _ => AdmittedExpression) :
    Finds ending (nested inner) fun _ => AdmittedExpression := by
  apply Finds.production
  intro place next opening choice ahead same selected
  have kind := only_eq_some.mp selected
  apply Ensures.bind (finds.require _ _ _)
  intro expression middle found
  rcases found with ⟨tokens, split, labels, admitted⟩
  apply Ensures.bind Ensures.expect
  intro closing behind found
  rcases found with ⟨ends, splitClosing, labelsClosing⟩
  refine Ensures.pure ⟨opening :: (tokens ++ [closing]), ?_,
    (labelsClosing.trans labels).trans same, ?_⟩
  · rw [ahead, split, splitClosing]
    simp
  · exact ⟨.nested kind admitted.phrase ends, .nested admitted.typed,
      by simp [admitted.range, Lexeme.inRange_of_kind kind, Lexeme.inRange_of_kind ends]⟩

theorem finds_readGlyph : Finds ending readGlyph fun _ => AdmittedExpression := by
  apply Finds.production
  intro place next sign choice ahead same selected
  have kind := readSign_eq_some.mp selected
  have range : sign.InRange := by
    intro integer
    simp [readKinds, integer] at kind
  exact Ensures.pure ⟨[sign], ahead, same, .read kind, .read, by simp [range]⟩

theorem finds_literal : Finds ending literal fun _ => AdmittedExpression := by
  apply Finds.production
  intro place next lexeme choice ahead same selected
  have kind := literalKind_eq_some.mp selected
  cases read : literalValue choice lexeme.text.toList with
  | error cause =>
      exact Ensures.fail
  | ok value =>
      obtain ⟨stands, range⟩ := denotes_of_literalValue kind read
      exact Ensures.pure ⟨[lexeme], ahead, same, .literal stands, .literal, by simp [range]⟩

theorem finds_expression (levels : Nat) :
    Finds ending (expression levels) fun _ => AdmittedExpression := by
  induction levels with
  | zero => exact fun place => Ensures.pure rfl
  | succ levels inductionHypothesis =>
      apply Finds.firstOf
      simp only [List.forall_mem_cons, List.not_mem_nil, false_implies, implies_true, and_true]
      exact ⟨finds_negation inductionHypothesis, finds_binary inductionHypothesis,
        finds_nested inductionHypothesis, finds_readGlyph, finds_literal⟩

end Grammar

/-! ## Statements and blocks -/

/-- A boolean expression between parentheses that passes every check. -/
structure AdmittedCondition (tokens : List Lexeme) (test : Expression) : Prop where
  phrase : ConditionPhrase tokens test
  typed : HasType test .boolean
  range : AllInRange tokens

/-- A statement that some tokens are, and that passes every check under some visible labels. -/
structure AdmittedStatement (labels : Environment (Option Block)) (tokens : List Lexeme)
    (statement : Statement) : Prop where
  phrase : StatementPhrase tokens statement
  typed : statement.WellTyped
  range : AllInRange tokens
  resolved : ∀ name ∈ statement.gotos, labels.contains name = true

/-- A block that some tokens are, and that passes every check under some visible labels. -/
structure AdmittedBlock (labels : Environment (Option Block)) (tokens : List Lexeme)
    (block : Block) : Prop where
  phrase : BlockPhrase tokens block
  typed : block.WellTyped
  range : AllInRange tokens
  resolved : ∀ name ∈ block.gotos, labels.contains name = true

theorem admittedBlock_of_phrases {labels : Environment (Option Block)} {opening closing : Lexeme}
    {tokens : List Lexeme} {statements : List Statement} (begins : opening.kind = .symbol .openBrace)
    (ends : closing.kind = .symbol .closeBrace)
    (phrases : Phrases (AdmittedStatement labels) tokens statements) :
    AdmittedBlock labels (opening :: (tokens ++ [closing])) (.mk statements opening.line) := by
  have parts : Phrases StatementPhrase tokens statements ∧ Statement.AllWellTyped statements ∧
      AllInRange tokens ∧ ∀ name ∈ Statement.gotosOf statements, labels.contains name = true := by
    induction phrases with
    | nil => exact ⟨.nil, trivial, allInRange_nil, by simp [Statement.gotosOf]⟩
    | cons head tail inductionHypothesis =>
        rcases inductionHypothesis with ⟨phrases, typed, range, resolved⟩
        refine ⟨.cons head.phrase phrases, ⟨head.typed, typed⟩,
          allInRange_append.mpr ⟨head.range, range⟩, ?_⟩
        intro name member
        exact (List.mem_append.mp member).elim (head.resolved name) (resolved name)
  rcases parts with ⟨phrases, typed, range, resolved⟩
  exact ⟨.mk begins phrases ends, typed,
    by simp [range, Lexeme.inRange_of_kind begins, Lexeme.inRange_of_kind ends], resolved⟩

namespace Grammar

variable {ending : Option LexError} {expression : Parse (Option Expression)}
  {block : Parse (Option Block)}

theorem ensures_semicolon (earlier : Lexeme) (place : Place) :
    Ensures ending (semicolon earlier) place fun _ behind =>
      ∃ final, final.kind = .symbol .semicolon ∧ place.ahead = final :: behind.ahead ∧
        behind.labels = place.labels := by
  apply Ensures.bind Ensures.expect
  intro final behind found
  exact Ensures.pure ⟨final, found⟩

theorem ensures_condition (finds : Finds ending expression fun _ => AdmittedExpression)
    (word : Lexeme) (place : Place) :
    Ensures ending (condition expression word) place fun test behind =>
      Spends place (fun tokens => AdmittedCondition tokens test) behind := by
  apply Ensures.bind Ensures.expect
  intro opening next found
  rcases found with ⟨begins, ahead, same⟩
  apply Ensures.bind (finds.require _ _ _)
  intro test middle found
  rcases found with ⟨tokens, split, labels, admitted⟩
  apply Ensures.bind Ensures.checkType
  intro _ _ found
  rcases found with ⟨boolean, rfl⟩
  apply Ensures.bind Ensures.expect
  intro closing behind found
  rcases found with ⟨ends, splitClosing, labelsClosing⟩
  refine Ensures.pure ⟨opening :: (tokens ++ [closing]), ?_,
    (labelsClosing.trans labels).trans same, ?_⟩
  · rw [ahead, split, splitClosing]
    simp
  · exact ⟨.mk begins admitted.phrase ends, boolean ▸ admitted.typed,
      by simp [admitted.range, Lexeme.inRange_of_kind begins, Lexeme.inRange_of_kind ends]⟩

theorem finds_emptyStatement : Finds ending emptyStatement AdmittedStatement := by
  apply Finds.production
  intro place next final choice ahead same selected
  have kind := only_eq_some.mp selected
  exact Ensures.pure ⟨[final], ahead, same, .empty kind, trivial,
    by simp [Lexeme.inRange_of_kind kind], by simp [Statement.gotos]⟩

theorem finds_moveStatement (finds : Finds ending expression fun _ => AdmittedExpression) :
    Finds ending (moveStatement expression) AdmittedStatement := by
  apply Finds.production
  intro place next word direction ahead same selected
  have kind := moveDirection_eq_some.mp selected
  have range : word.InRange := by
    intro integer
    cases direction <;> simp [Direction.kinds, integer] at kind
  apply Ensures.bind (finds.require _ _ _)
  intro distance middle found
  rcases found with ⟨tokens, split, labels, admitted⟩
  apply Ensures.bind Ensures.checkType
  intro _ _ found
  rcases found with ⟨number, rfl⟩
  apply Ensures.bind (ensures_semicolon _ _)
  intro _ behind found
  rcases found with ⟨final, ends, splitFinal, labelsFinal⟩
  refine Ensures.pure ⟨word :: (tokens ++ [final]), ?_,
    (labelsFinal.trans labels).trans same, ?_⟩
  · rw [ahead, split, splitFinal]
    simp
  · have typed : HasType distance .number := number ▸ admitted.typed
    exact ⟨.move kind admitted.phrase ends, typed,
      by simp [range, admitted.range, Lexeme.inRange_of_kind ends], by simp [Statement.gotos]⟩

theorem finds_writeStatement (finds : Finds ending expression fun _ => AdmittedExpression) :
    Finds ending (writeStatement expression) AdmittedStatement := by
  apply Finds.production
  intro place next word choice ahead same selected
  have kind := only_eq_some.mp selected
  apply Ensures.bind (finds.require _ _ _)
  intro value middle found
  rcases found with ⟨tokens, split, labels, admitted⟩
  apply Ensures.bind Ensures.checkType
  intro _ _ found
  rcases found with ⟨character, rfl⟩
  apply Ensures.bind (ensures_semicolon _ _)
  intro _ behind found
  rcases found with ⟨final, ends, splitFinal, labelsFinal⟩
  refine Ensures.pure ⟨word :: (tokens ++ [final]), ?_,
    (labelsFinal.trans labels).trans same, ?_⟩
  · rw [ahead, split, splitFinal]
    simp
  · have typed : HasType value .character := character ▸ admitted.typed
    exact ⟨.write kind admitted.phrase ends, typed,
      by simp [admitted.range, Lexeme.inRange_of_kind kind, Lexeme.inRange_of_kind ends],
      by simp [Statement.gotos]⟩

theorem finds_gotoStatement : Finds ending gotoStatement AdmittedStatement := by
  apply Finds.production
  intro place next word choice ahead same selected
  have kind := only_eq_some.mp selected
  apply Ensures.bind Ensures.expect
  intro label middle found
  rcases found with ⟨names, splitLabel, labels⟩
  refine Meets.bind (Meets.labels ?_)
  intro parser visible
  dsimp only
  split
  · rename_i contained
    rw [visible, labels, same] at contained
    apply Ensures.bind (ensures_semicolon _ _)
    intro _ behind found
    rcases found with ⟨final, ends, splitFinal, labelsFinal⟩
    refine Ensures.pure ⟨[word, label, final], ?_, (labelsFinal.trans labels).trans same, ?_⟩
    · rw [ahead, splitLabel, splitFinal]
      rfl
    · exact ⟨.goto kind names ends, trivial,
        by simp [Lexeme.inRange_of_kind kind, Lexeme.inRange_of_kind names,
          Lexeme.inRange_of_kind ends],
        by simpa [Statement.gotos] using contained⟩
  · exact Ensures.fail

theorem finds_haltStatement : Finds ending haltStatement AdmittedStatement := by
  apply Finds.production
  intro place next word choice ahead same selected
  have kind := only_eq_some.mp selected
  apply Ensures.bind (ensures_semicolon _ _)
  intro _ behind found
  rcases found with ⟨final, ends, splitFinal, labelsFinal⟩
  refine Ensures.pure ⟨[word, final], ?_, labelsFinal.trans same, ?_⟩
  · rw [ahead, splitFinal]
    rfl
  · exact ⟨.halt kind ends, trivial,
      by simp [Lexeme.inRange_of_kind kind, Lexeme.inRange_of_kind ends],
      by simp [Statement.gotos]⟩

theorem finds_block {statement : Parse (Option Statement)}
    (finds : Finds ending statement AdmittedStatement) (limit : Nat) :
    Finds ending (Grammar.block statement limit) AdmittedBlock := by
  apply Finds.production
  intro place next opening choice ahead same selected
  have kind := only_eq_some.mp selected
  refine Meets.bind (Meets.modifyLabels ?_)
  apply Ensures.bind (finds.many limit _)
  intro statements middle found
  rcases found with ⟨tokens, split, labels, phrases⟩
  refine Meets.bind (Meets.modifyLabels ?_)
  apply Ensures.bind Ensures.expect
  intro closing behind found
  rcases found with ⟨ends, splitClosing, labelsClosing⟩
  refine Ensures.pure ⟨opening :: (tokens ++ [closing]), ?_, ?_, ?_⟩
  · rw [ahead, show next.ahead = tokens ++ middle.ahead from split,
      show middle.ahead = closing :: behind.ahead from splitClosing]
    simp
  · rw [labelsClosing, labels, Environment.unnest_nest, same]
  · have admitted := admittedBlock_of_phrases kind ends phrases
    exact ⟨admitted.phrase, admitted.typed, admitted.range, fun name member => by
      simpa [same] using admitted.resolved name member⟩

theorem finds_elseBranch (finds : Finds ending block AdmittedBlock) :
    Finds ending (elseBranch block) fun labels tokens body =>
      ∃ other others, tokens = other :: others ∧ other.kind = .keyword .elseWord ∧
        AdmittedBlock labels others body := by
  apply Finds.production
  intro place next word choice ahead same selected
  apply (finds.require _ _ _).mono
  intro body behind found
  rcases found with ⟨tokens, split, labels, admitted⟩
  refine ⟨word :: tokens, ?_, labels.trans same, word, tokens, rfl, only_eq_some.mp selected,
    same ▸ admitted⟩
  rw [ahead, split]
  rfl

theorem finds_ifStatement (findsExpression : Finds ending expression fun _ => AdmittedExpression)
    (findsBlock : Finds ending block AdmittedBlock) :
    Finds ending (ifStatement expression block) AdmittedStatement := by
  apply Finds.production
  intro place next word choice ahead same selected
  have kind := only_eq_some.mp selected
  apply Ensures.bind (ensures_condition findsExpression _ _)
  intro test inner found
  rcases found with ⟨tokens, splitTest, labelsTest, admittedTest⟩
  apply Ensures.bind (findsBlock.require _ _ _)
  intro thenBody middle found
  rcases found with ⟨first, splitThen, labelsThen, admittedThen⟩
  have sameInner := labelsTest.trans same
  have sameMiddle := labelsThen.trans sameInner
  rw [sameInner] at admittedThen
  apply Ensures.bind (finds_elseBranch findsBlock middle)
  intro result behind found
  cases result with
  | none =>
      obtain rfl : behind = middle := found
      refine Ensures.pure ⟨word :: (tokens ++ first), ?_, sameMiddle, ?_⟩
      · rw [ahead, splitTest, splitThen]
        simp
      · exact ⟨.ifThen kind admittedTest.phrase admittedThen.phrase,
          ⟨admittedTest.typed, admittedThen.typed⟩,
          by simp [admittedTest.range, admittedThen.range, Lexeme.inRange_of_kind kind],
          admittedThen.resolved⟩
  | some elseBody =>
      rcases found with ⟨used, splitElse, labelsElse, other, second, rfl, otherwise, admittedElse⟩
      rw [sameMiddle] at admittedElse
      refine Ensures.pure ⟨word :: (tokens ++ (first ++ other :: second)), ?_,
        labelsElse.trans sameMiddle, ?_⟩
      · rw [ahead, splitTest, splitThen, splitElse]
        simp
      · exact ⟨.ifElse kind admittedTest.phrase admittedThen.phrase otherwise admittedElse.phrase,
          ⟨admittedTest.typed, admittedThen.typed, admittedElse.typed⟩,
          by simp [admittedTest.range, admittedThen.range, admittedElse.range,
            Lexeme.inRange_of_kind kind, Lexeme.inRange_of_kind otherwise],
          fun name member => (List.mem_append.mp member).elim (admittedThen.resolved name)
            (admittedElse.resolved name)⟩

theorem finds_whileStatement (findsExpression : Finds ending expression fun _ => AdmittedExpression)
    (findsBlock : Finds ending block AdmittedBlock) :
    Finds ending (whileStatement expression block) AdmittedStatement := by
  apply Finds.production
  intro place next word choice ahead same selected
  have kind := only_eq_some.mp selected
  apply Ensures.bind (ensures_condition findsExpression _ _)
  intro test middle found
  rcases found with ⟨tokens, splitTest, labelsTest, admittedTest⟩
  apply Ensures.bind (findsBlock.require _ _ _)
  intro body behind found
  rcases found with ⟨inside, splitBody, labelsBody, admittedBody⟩
  rw [labelsTest.trans same] at admittedBody
  refine Ensures.pure ⟨word :: (tokens ++ inside), ?_,
    (labelsBody.trans labelsTest).trans same, ?_⟩
  · rw [ahead, splitTest, splitBody]
    simp
  · exact ⟨.whileLoop kind admittedTest.phrase admittedBody.phrase,
      ⟨admittedTest.typed, admittedBody.typed⟩,
      by simp [admittedTest.range, admittedBody.range, Lexeme.inRange_of_kind kind],
      admittedBody.resolved⟩

theorem finds_statement (limit levels : Nat) :
    Finds ending (statement limit levels) AdmittedStatement := by
  induction levels with
  | zero => exact fun place => Ensures.pure rfl
  | succ levels inductionHypothesis =>
      have findsExpression : Finds ending (expression limit) fun _ => AdmittedExpression :=
        finds_expression limit
      have findsBlock := finds_block inductionHypothesis limit
      apply Finds.firstOf
      simp only [List.forall_mem_cons, List.not_mem_nil, false_implies, implies_true, and_true]
      exact ⟨finds_emptyStatement, finds_moveStatement findsExpression,
        finds_writeStatement findsExpression, finds_gotoStatement,
        finds_ifStatement findsExpression findsBlock,
        finds_whileStatement findsExpression findsBlock, finds_haltStatement⟩

end Grammar

/-! ## Items and programs -/

/-- Items that some tokens are, and that pass every check behind some visible labels. -/
structure AdmittedItems (labels : Environment (Option Block)) (tokens : List Lexeme)
    (items : List Item) : Prop where
  phrases : Phrases ItemPhrase tokens items
  typed : ∀ item ∈ items, item.WellTyped
  range : AllInRange tokens
  resolved : Item.Resolve (fun name => labels.contains name = true) items

namespace Grammar

variable {ending : Option LexError}

/-- What an item leaves behind: its label is visible now, and so it is in its own body. -/
def ItemFound (place : Place) (item : Item) (behind : Place) : Prop :=
  ∃ tokens, place.ahead = tokens ++ behind.ahead ∧ behind.labels = item.declare place.labels ∧
    ItemPhrase tokens item ∧ item.WellTyped ∧ AllInRange tokens ∧
    ∀ name ∈ item.gotos, behind.labels.contains name = true

theorem ensures_labelDefinition {block : Parse (Option Block)}
    (finds : Finds ending block AdmittedBlock) (place : Place) :
    Ensures ending (labelDefinition block) place fun result behind =>
      match result with
      | none => behind = place
      | some definition => ItemFound place (.label definition) behind := by
  refine Ensures.production ?_ rfl
  intro next name choice ahead same selected
  have kind := only_eq_some.mp selected
  apply Ensures.bind Ensures.expect
  intro colon middle found
  rcases found with ⟨follows, splitColon, labelsColon⟩
  refine Meets.bind (Meets.modifyLabels ?_)
  apply Ensures.bind (finds.require _ _ _)
  intro body behind found
  rcases found with ⟨tokens, split, labels, admitted⟩
  refine Meets.bind (Meets.modifyLabels ?_)
  refine Ensures.pure ⟨name :: colon :: tokens, ?_, ?_, .label kind follows admitted.phrase,
    admitted.typed, ?_, ?_⟩
  · rw [ahead, splitColon, show middle.ahead = tokens ++ behind.ahead from split]
    rfl
  · rw [labels, labelsColon, same]
    rfl
  · simp [admitted.range, Lexeme.inRange_of_kind kind, Lexeme.inRange_of_kind follows]
  · intro other member
    have inside := admitted.resolved other member
    rw [Environment.contains_define, labels, inside, Bool.or_true]

theorem ensures_item (limit : Nat) (place : Place) :
    Ensures ending (item limit) place fun result behind =>
      match result with
      | none => behind = place
      | some item => ItemFound place item behind := by
  have findsStatement : Finds ending (statement limit limit) AdmittedStatement :=
    finds_statement limit limit
  apply Ensures.bind (ensures_labelDefinition (finds_block findsStatement limit) place)
  intro result behind found
  cases result with
  | some definition => exact Ensures.pure found
  | none =>
      obtain rfl : behind = place := found
      apply Ensures.bind (findsStatement behind)
      intro result final found
      cases result with
      | none => exact Ensures.pure found
      | some entry =>
          rcases found with ⟨tokens, split, labels, admitted⟩
          exact Ensures.pure ⟨tokens, split, labels,
            .statement admitted.phrase, admitted.typed, admitted.range,
            labels ▸ admitted.resolved⟩

/-- The labels behind some items are those in front of them and those that the items define. -/
theorem ensures_items (limit count : Nat) (place : Place) :
    Ensures ending (many (item limit) count) place fun items behind =>
      ∃ tokens, place.ahead = tokens ++ behind.ahead ∧
        behind.labels = items.foldl Item.declare place.labels ∧
        AdmittedItems place.labels tokens items := by
  induction count generalizing place with
  | zero => exact Ensures.pure ⟨[], rfl, rfl, .nil, by simp, allInRange_nil, trivial⟩
  | succ count inductionHypothesis =>
      apply Ensures.bind (ensures_item limit place)
      intro result behind found
      cases result with
      | none =>
          obtain rfl : behind = place := found
          exact Ensures.pure ⟨[], rfl, rfl, .nil, by simp, allInRange_nil, trivial⟩
      | some item =>
          rcases found with ⟨first, split, labels, phrase, typed, range, resolved⟩
          apply Ensures.bind (inductionHypothesis behind)
          intro items final found
          rcases found with ⟨others, splitOthers, declared, admitted⟩
          refine Ensures.pure ⟨first ++ others, ?_, ?_, .cons phrase admitted.phrases,
            List.forall_mem_cons.mpr ⟨typed, admitted.typed⟩,
            allInRange_append.mpr ⟨range, admitted.range⟩, ?_, ?_⟩
          · rw [split, splitOthers, List.append_assoc]
          · rw [declared, labels, List.foldl_cons]
          · exact fun name member =>
              (Item.contains_declare _ _ _).mp (labels ▸ resolved name member)
          · simpa only [labels, Item.contains_declare] using admitted.resolved

/-- A program is made of all tokens, and there is no error behind the last one. -/
theorem ensures_program (limit : Nat) (place : Place) :
    Ensures ending (program limit) place fun program behind =>
      ending = none ∧ behind.labels = program.items.foldl Item.declare place.labels ∧
        AdmittedItems place.labels place.ahead program.items := by
  apply Ensures.bind (ensures_items limit limit place)
  intro items behind found
  rcases found with ⟨tokens, split, declared, admitted⟩
  refine Meets.bind (Meets.hasLexeme ?_ ?_ fun _ _ _ => trivial)
  · intro more
    simp only [↓reduceIte]
    refine Meets.bind (Meets.nextLexeme ?_ ?_ fun _ _ _ => trivial)
    · exact fun _ _ _ => Ensures.fail
    · exact fun finished _ => absurd finished more
  · intro finished ends
    rw [finished, List.append_nil] at split
    simp only [Bool.false_eq_true, ↓reduceIte]
    exact Ensures.pure ⟨ends, declared, split ▸ admitted⟩

end Grammar

end TapeMachine
