import TapeMachine.Proofs.Grammar.Production
import TapeMachine.Proofs.Grammar.Unrolling
import TapeMachine.Proofs.Syntax.Relocation

/-!
Contract: parsing depends on the kinds and texts of the tokens alone.

Owns: steps that come to the same result from the same tokens at other places, with any numbers of
levels and repetitions that are large enough, and this agreement for every production.

A production that yields something has used up a token. So numbers of levels and repetitions that
exceed the number of tokens are never exhausted, and it does not matter what they are, nor what
would be done in further rounds.
-/

namespace TapeMachine

open Grammar Relocatable

def Place.relocate (places : Relocation) (place : Place) : Place where
  ahead := place.ahead.map (Lexeme.relocate places)
  labels := place.labels.map (Option.map (Block.relocate places))

/-! ## Outcomes -/

/-- From a place, a step comes to one result and to one place behind it. -/
def ComesTo {α : Type} (ending : Option LexError) (step : Parse α) (place : Place)
    (result : Except ParseError α) (behind : Place) : Prop :=
  Meets ending step place fun found reached => found = result ∧ reached = behind

/-- Two steps come to the same result, the second one at other places. -/
structure Corresponds {α : Type} [Relocatable α] (places : Relocation) (ending : Option LexError)
    (first second : Parse α) (place : Place) (result : Except ParseError α) (behind : Place) :
    Prop where
  here : ComesTo ending first place result behind
  there : ComesTo (ending.map (LexError.relocate places)) second (place.relocate places)
    (relocate places result) (behind.relocate places)

namespace Corresponds

variable {α β : Type} [Relocatable α] [Relocatable β] {places : Relocation}
  {ending : Option LexError} {place middle behind : Place}

theorem pure {value : α} : Corresponds places ending (Pure.pure value)
    (Pure.pure (relocate places value)) place (.ok value) place where
  here := Meets.pure ⟨rfl, rfl⟩
  there := Meets.pure ⟨rfl, rfl⟩

theorem fail {lexeme : Lexeme} {cause : ParseCause} :
    Corresponds places ending (Grammar.fail lexeme cause : Parse α)
      (Grammar.fail (lexeme.relocate places) cause) place (.error (.atLexeme lexeme cause))
      place where
  here := Meets.fail ⟨rfl, rfl⟩
  there := Meets.fail ⟨rfl, rfl⟩

theorem bind {first second : Parse α} {next other : α → Parse β} {value : α}
    {result : Except ParseError β}
    (begins : Corresponds places ending first second place (.ok value) middle)
    (continues : Corresponds places ending (next value) (other (relocate places value)) middle
      result behind) :
    Corresponds places ending (first >>= next) (second >>= other) place result behind where
  here := by
    refine Meets.bind (begins.here.mono ?_)
    rintro _ _ ⟨rfl, rfl⟩
    exact continues.here
  there := by
    refine Meets.bind (begins.there.mono ?_)
    rintro _ _ ⟨rfl, rfl⟩
    exact continues.there

theorem bindError {first second : Parse α} {next other : α → Parse β} {error : ParseError}
    (fails : Corresponds places ending first second place (.error error) behind) :
    Corresponds places ending (first >>= next) (second >>= other) place (.error error)
      behind where
  here := by
    refine Meets.bind (fails.here.mono ?_)
    rintro _ _ ⟨rfl, rfl⟩
    exact ⟨rfl, rfl⟩
  there := by
    refine Meets.bind (fails.there.mono ?_)
    rintro _ _ ⟨rfl, rfl⟩
    exact ⟨rfl, rfl⟩

theorem modifyLabels {change other : Environment (Option Block) → Environment (Option Block)}
    (commutes : ∀ labels : Environment (Option Block),
      (change labels).map (Option.map (Block.relocate places)) =
        other (labels.map (Option.map (Block.relocate places)))) :
    Corresponds places ending (Grammar.modifyLabels change) (Grammar.modifyLabels other) place
      (.ok ()) ⟨place.ahead, change place.labels⟩ where
  here := Meets.modifyLabels ⟨rfl, rfl⟩
  there := Meets.modifyLabels ⟨rfl, by simp only [Place.relocate, commutes]⟩

theorem nextLexeme {lexeme : Lexeme} {others : List Lexeme}
    (ahead : place.ahead = lexeme :: others) :
    Corresponds places ending Grammar.nextLexeme
      Grammar.nextLexeme place (.ok (some lexeme)) ⟨others, place.labels⟩ where
  here := by
    refine Meets.nextLexeme ?_ ?_ ?_
    · rintro _ _ same
      obtain ⟨rfl, rfl⟩ := List.cons.inj (ahead.symm.trans same)
      exact ⟨rfl, rfl⟩
    · simp [ahead]
    · simp [ahead]
  there := by
    have moved : (place.relocate places).ahead =
        lexeme.relocate places :: others.map (Lexeme.relocate places) := by
      simp [Place.relocate, ahead]
    refine Meets.nextLexeme ?_ ?_ ?_
    · rintro _ _ same
      obtain ⟨rfl, rfl⟩ := List.cons.inj (moved.symm.trans same)
      exact ⟨rfl, rfl⟩
    · simp [moved]
    · simp [moved]

/-- Behind the last token the input ends, or there is the error. -/
theorem nextLexeme_nil (ahead : place.ahead = []) :
    Corresponds places ending Grammar.nextLexeme
      Grammar.nextLexeme place
      (match ending with
        | none => .ok none
        | some error => .error (.ofLexError error)) place where
  here := by
    refine Meets.nextLexeme ?_ ?_ ?_
    · simp [ahead]
    · rintro - rfl
      exact ⟨rfl, rfl⟩
    · rintro error - rfl
      exact ⟨rfl, rfl⟩
  there := by
    have moved : (place.relocate places).ahead = [] := by simp [Place.relocate, ahead]
    refine Meets.nextLexeme ?_ ?_ ?_
    · simp [moved]
    · intro _ ends
      obtain rfl := Option.map_eq_none_iff.mp ends
      exact ⟨rfl, rfl⟩
    · intro error _ ends
      obtain ⟨original, rfl, rfl⟩ := Option.map_eq_some_iff.mp ends
      exact ⟨rfl, rfl⟩

theorem hasLexeme :
    Corresponds places ending Grammar.hasLexeme Grammar.hasLexeme place
      (match place.ahead, ending with
        | _ :: _, _ => .ok true
        | [], none => .ok false
        | [], some error => .error (.ofLexError error)) place where
  here := by
    refine Meets.hasLexeme ?_ ?_ ?_
    · intro more
      obtain ⟨lexeme, others, ahead⟩ := List.exists_cons_of_ne_nil more
      simp [ahead]
    · rintro ahead rfl
      simp [ahead]
    · rintro error ahead rfl
      simp [ahead]
  there := by
    refine Meets.hasLexeme ?_ ?_ ?_
    · intro more
      obtain ⟨lexeme, others, ahead⟩ := List.exists_cons_of_ne_nil more
      obtain ⟨original, rest, same, -, -⟩ := List.map_eq_cons_iff.mp ahead
      simp [same, relocate]
    · intro ahead ends
      obtain rfl := Option.map_eq_none_iff.mp ends
      simp [List.map_eq_nil_iff.mp ahead, relocate]
    · intro error ahead ends
      obtain ⟨original, rfl, rfl⟩ := Option.map_eq_some_iff.mp ends
      simp [List.map_eq_nil_iff.mp ahead, relocate, ParseError.ofLexError, ParseError.relocate,
        LexError.relocate]

/-- An attempt that yields nothing goes back. -/
theorem attempt_none {first second : Parse (Option α)}
    (attempted : Corresponds places ending first second place (.ok none) behind) :
    Corresponds places ending (Grammar.attempt first) (Grammar.attempt second) place (.ok none)
      ⟨place.ahead, behind.labels⟩ where
  here := by
    refine Meets.attempt (attempted.here.mono ?_)
    rintro _ _ ⟨rfl, rfl⟩
    exact ⟨rfl, rfl⟩
  there := by
    refine Meets.attempt (attempted.there.mono ?_)
    rintro _ _ ⟨rfl, rfl⟩
    exact ⟨rfl, rfl⟩

theorem attempt {first second : Parse (Option α)} {result : Except ParseError (Option α)}
    (attempted : Corresponds places ending first second place result behind)
    (something : result ≠ .ok none) :
    Corresponds places ending (Grammar.attempt first) (Grammar.attempt second) place result
      behind where
  here := by
    refine Meets.attempt (attempted.here.mono ?_)
    rcases result with error | ⟨_ | value⟩ <;> rintro _ _ ⟨rfl, rfl⟩
    · exact ⟨rfl, rfl⟩
    · exact absurd rfl something
    · exact ⟨rfl, rfl⟩
  there := by
    refine Meets.attempt (attempted.there.mono ?_)
    rcases result with error | ⟨_ | value⟩ <;> rintro _ _ ⟨rfl, rfl⟩
    · exact ⟨rfl, rfl⟩
    · exact absurd rfl something
    · exact ⟨rfl, rfl⟩

/-- Whether a label is visible does not depend on where anything stands. -/
theorem ifVisible {label : String} {first second otherFirst otherSecond : Parse α}
    {result : Except ParseError α}
    (continues : Corresponds places ending
      (if place.labels.contains label then first else second)
      (if place.labels.contains label then otherFirst else otherSecond) place result behind) :
    Corresponds places ending
      (do if (← get).labels.contains label then first else second)
      (do if (← get).labels.contains label then otherFirst else otherSecond) place result
      behind where
  here := by
    refine Meets.bind (Meets.labels fun parser visible => ?_)
    show Meets ending (if parser.labels.contains label then first else second) place _
    rw [visible]
    exact continues.here
  there := by
    refine Meets.bind (Meets.labels fun parser visible => ?_)
    show Meets _ (if parser.labels.contains label then otherFirst else otherSecond) _ _
    rw [visible, show (place.relocate places).labels.contains label = place.labels.contains label
      from Environment.contains_map _ _ _]
    exact continues.there

end Corresponds

/-! ## Steps that agree -/

section

variable (places : Relocation) (ending : Option LexError)

/-- From every place with at most a number of tokens ahead, two steps come to the same result, and
there are not more tokens ahead then. -/
def Agrees {α : Type} [Relocatable α] (bound : Nat) (first second : Parse α) : Prop :=
  ∀ place : Place, place.ahead.length ≤ bound → ∃ result behind,
    Corresponds places ending first second place result behind ∧ behind.ahead.length ≤ bound

/-- Two steps agree, and if they yield something they have used up a token. -/
def AgreesForward {α : Type} [Relocatable α] (bound : Nat) (first second : Parse (Option α)) :
    Prop :=
  ∀ place : Place, place.ahead.length ≤ bound → ∃ result behind,
    Corresponds places ending first second place result behind ∧
      behind.ahead.length ≤ place.ahead.length ∧
      ∀ value, result = .ok (some value) → behind.ahead.length < place.ahead.length

end

variable {α β : Type} [Relocatable α] [Relocatable β] {places : Relocation}
  {ending : Option LexError} {bound : Nat}

theorem AgreesForward.agrees {first second : Parse (Option α)}
    (forward : AgreesForward places ending bound first second) :
    Agrees places ending bound first second := by
  intro place within
  obtain ⟨result, behind, outcome, fewer, -⟩ := forward place within
  exact ⟨result, behind, outcome, Nat.le_trans fewer within⟩

theorem AgreesForward.mono {first second : Parse (Option α)} {smaller : Nat}
    (forward : AgreesForward places ending bound first second) (less : smaller ≤ bound) :
    AgreesForward places ending smaller first second :=
  fun place within => forward place (Nat.le_trans within less)

namespace Agrees

theorem pure {value : α} : Agrees places ending bound (Pure.pure value)
    (Pure.pure (relocate places value)) :=
  fun place within => ⟨_, place, .pure, within⟩

theorem fail {lexeme : Lexeme} {cause : ParseCause} :
    Agrees places ending bound (Grammar.fail lexeme cause : Parse α)
      (Grammar.fail (lexeme.relocate places) cause) :=
  fun place within => ⟨_, place, .fail, within⟩

theorem bind {first second : Parse α} {next other : α → Parse β}
    (begins : Agrees places ending bound first second)
    (continues : ∀ value, Agrees places ending bound (next value) (other (relocate places value))) :
    Agrees places ending bound (first >>= next) (second >>= other) := by
  intro place within
  obtain ⟨result, middle, outcome, fewer⟩ := begins place within
  cases result with
  | error error => exact ⟨_, middle, outcome.bindError, fewer⟩
  | ok value =>
      obtain ⟨result, behind, rest, final⟩ := continues value middle fewer
      exact ⟨result, behind, outcome.bind rest, final⟩

theorem ifVisible {label : String} {first second otherFirst otherSecond : Parse α}
    (visible : Agrees places ending bound first otherFirst)
    (hidden : Agrees places ending bound second otherSecond) :
    Agrees places ending bound
      (do if (← get).labels.contains label then first else second)
      (do if (← get).labels.contains label then otherFirst else otherSecond) := by
  intro place within
  cases contained : place.labels.contains label with
  | true =>
      obtain ⟨result, behind, outcome, fewer⟩ := visible place within
      exact ⟨result, behind, .ifVisible (by simpa [contained] using outcome), fewer⟩
  | false =>
      obtain ⟨result, behind, outcome, fewer⟩ := hidden place within
      exact ⟨result, behind, .ifVisible (by simpa [contained] using outcome), fewer⟩

theorem modifyLabels {change other : Environment (Option Block) → Environment (Option Block)}
    (commutes : ∀ labels : Environment (Option Block),
      (change labels).map (Option.map (Block.relocate places)) =
        other (labels.map (Option.map (Block.relocate places)))) :
    Agrees places ending bound (Grammar.modifyLabels change) (Grammar.modifyLabels other) :=
  fun place within => ⟨_, ⟨place.ahead, change place.labels⟩, .modifyLabels commutes, within⟩

theorem nextLexeme : Agrees places ending bound
    Grammar.nextLexeme Grammar.nextLexeme := by
  intro place within
  cases ahead : place.ahead with
  | nil => exact ⟨_, place, .nextLexeme_nil ahead, within⟩
  | cons lexeme others =>
      rw [ahead, List.length_cons] at within
      exact ⟨_, ⟨others, place.labels⟩, .nextLexeme ahead, Nat.le_of_succ_le within⟩

theorem hasLexeme : Agrees places ending bound Grammar.hasLexeme Grammar.hasLexeme :=
  fun place within => ⟨_, place, .hasLexeme, within⟩

theorem failMissing {earlier : Lexeme} {part : Missing} :
    Agrees places ending bound (Grammar.failMissing earlier part : Parse α)
      (Grammar.failMissing (earlier.relocate places) part) := by
  refine bind nextLexeme fun found => ?_
  cases found with
  | none => exact fail
  | some lexeme => exact fail

theorem expect {kind : Kind} {earlier : Lexeme} {part : Missing} :
    Agrees places ending bound (Grammar.expect kind earlier part)
      (Grammar.expect kind (earlier.relocate places) part) := by
  refine bind nextLexeme fun found => ?_
  cases found with
  | none => exact fail
  | some lexeme =>
      have same : (lexeme.relocate places).kind = lexeme.kind := rfl
      simp only [relocate_some, relocate_lexeme, same]
      split
      · exact pure
      · exact fail

theorem require {first second : Parse (Option α)} {earlier : Lexeme} {part : Missing}
    (agrees : Agrees places ending bound first second) :
    Agrees places ending bound (Grammar.require first earlier part)
      (Grammar.require second (earlier.relocate places) part) := by
  refine bind agrees fun found => ?_
  cases found with
  | none => exact failMissing
  | some value => exact pure

theorem checkType {found wanted : ValueType} {lexeme : Lexeme} {mismatch : TypeMismatch} :
    Agrees places ending bound (Grammar.checkType found wanted lexeme mismatch)
      (Grammar.checkType found wanted (lexeme.relocate places) mismatch) := by
  unfold Grammar.checkType
  split
  · exact pure
  · exact fail

/-- Repeating more often than there are tokens ahead is repeating until nothing is yielded. -/
theorem many {first second : Parse (Option α)} {others otherOthers : Parse (List α)}
    (forward : AgreesForward places ending bound first second) {limit other : Nat}
    (enough : bound < limit) (enoughOther : bound < other) :
    Agrees places ending bound (manyAbove others first limit)
      (manyAbove otherOthers second other) := by
  induction limit generalizing other bound with
  | zero => exact absurd enough (Nat.not_lt_zero bound)
  | succ limit inductionHypothesis =>
      cases other with
      | zero => exact absurd enoughOther (Nat.not_lt_zero bound)
      | succ other =>
          intro place within
          obtain ⟨result, middle, outcome, fewer, progress⟩ := forward place within
          rcases result with error | ⟨_ | value⟩
          · exact ⟨_, middle, outcome.bindError, Nat.le_trans fewer within⟩
          · exact ⟨_, middle, outcome.bind .pure, Nat.le_trans fewer within⟩
          · -- The step has used up a token, so one repetition fewer is enough for the others.
            have less := progress value rfl
            have rest : Agrees places ending (bound - 1) (manyAbove others first limit)
                (manyAbove otherOthers second other) :=
              inductionHypothesis (forward.mono (Nat.sub_le bound 1)) (by omega) (by omega)
            have step : Agrees places ending (bound - 1)
                (do return value :: (← manyAbove others first limit))
                (do return relocate places value :: (← manyAbove otherOthers second other)) :=
              bind rest fun others => pure
            obtain ⟨final, behind, continues, bounded⟩ := step middle (by omega)
            exact ⟨final, behind, outcome.bind continues, by omega⟩

end Agrees

namespace AgreesForward

theorem attempt {first second : Parse (Option α)}
    (forward : AgreesForward places ending bound first second) :
    AgreesForward places ending bound (Grammar.attempt first) (Grammar.attempt second) := by
  intro place within
  obtain ⟨result, behind, outcome, fewer, progress⟩ := forward place within
  rcases result with error | ⟨_ | value⟩
  · exact ⟨_, behind, outcome.attempt (by simp), fewer, by simp⟩
  · exact ⟨_, _, outcome.attempt_none, Nat.le_refl _, by simp⟩
  · exact ⟨_, behind, outcome.attempt (by simp), fewer, progress⟩

/-- A production uses up the token that it begins with. -/
theorem production {choice : Type} {select : Kind → Option choice}
    {body other : Lexeme → choice → Parse α}
    (begins : ∀ smaller < bound, ∀ lexeme choice,
      Agrees places ending smaller (body lexeme choice) (other (lexeme.relocate places) choice)) :
    AgreesForward places ending bound (Grammar.production select body)
      (Grammar.production select other) := by
  refine attempt fun place within => ?_
  cases ahead : place.ahead with
  | nil =>
      have looked : Corresponds places ending _ _ place _ place := .nextLexeme_nil ahead
      cases ends : ending with
      | none =>
          rw [ends] at looked
          exact ⟨.ok none, place, .bind looked .pure, by simp [ahead], by simp⟩
      | some error =>
          rw [ends] at looked
          exact ⟨_, place, .bindError looked, by simp [ahead], by simp⟩
  | cons lexeme others =>
      have looked : Corresponds places ending _ _ place _ _ := .nextLexeme ahead
      have kind : (lexeme.relocate places).kind = lexeme.kind := rfl
      rw [ahead, List.length_cons] at within
      cases selected : select lexeme.kind with
      | none =>
          refine ⟨.ok none, ⟨others, place.labels⟩, .bind looked ?_, by simp, by simp⟩
          simp only [relocate_some, relocate_lexeme, kind, selected]
          exact .pure
      | some choice =>
          have committed : Agrees places ending others.length
              (do return some (← body lexeme choice))
              (do return some (← other (lexeme.relocate places) choice)) :=
            (begins others.length within lexeme choice).bind fun value => .pure
          obtain ⟨result, behind, outcome, fewer⟩ :=
            committed ⟨others, place.labels⟩ (Nat.le_refl _)
          refine ⟨result, behind, .bind looked ?_, Nat.le_succ_of_le fewer,
            fun _ _ => Nat.lt_succ_of_le fewer⟩
          simp only [relocate_some, relocate_lexeme, kind, selected]
          exact outcome

/-- What is yielded has used up a token, so what is done with it need not. -/
theorem orElse {first second : Parse (Option α)} {next other : Option α → Parse (Option β)}
    (tried : AgreesForward places ending bound first second)
    (yielded : ∀ smaller < bound, ∀ value,
      Agrees places ending smaller (next (some value)) (other (some (relocate places value))))
    (others : AgreesForward places ending bound (next none) (other none)) :
    AgreesForward places ending bound (first >>= next) (second >>= other) := by
  intro place within
  obtain ⟨result, middle, outcome, fewer, progress⟩ := tried place within
  rcases result with error | ⟨_ | value⟩
  · exact ⟨_, middle, outcome.bindError, fewer, by simp⟩
  · obtain ⟨result, behind, rest, fewerRest, progressRest⟩ :=
      others middle (Nat.le_trans fewer within)
    exact ⟨result, behind, outcome.bind rest, Nat.le_trans fewerRest fewer,
      fun value found => Nat.lt_of_lt_of_le (progressRest value found) fewer⟩
  · have less := progress value rfl
    obtain ⟨result, behind, rest, fewerRest⟩ :=
      yielded _ (Nat.lt_of_lt_of_le less within) value middle (Nat.le_refl _)
    have final := Nat.lt_of_le_of_lt fewerRest less
    exact ⟨result, behind, outcome.bind rest, Nat.le_of_lt final, fun _ _ => final⟩

theorem nothing :
    AgreesForward places ending bound (Pure.pure (none : Option α)) (Pure.pure none) :=
  fun place _ => ⟨_, place, .pure, Nat.le_refl _, by simp⟩

theorem firstOf_nil :
    AgreesForward places ending bound (Grammar.firstOf ([] : List (Parse (Option α))))
      (Grammar.firstOf []) :=
  nothing

theorem firstOf_cons {first second : Parse (Option α)} {firsts seconds : List (Parse (Option α))}
    (tried : AgreesForward places ending bound first second)
    (others : AgreesForward places ending bound (Grammar.firstOf firsts)
      (Grammar.firstOf seconds)) :
    AgreesForward places ending bound (Grammar.firstOf (first :: firsts))
      (Grammar.firstOf (second :: seconds)) :=
  orElse tried (fun _ _ _ => .pure) others

end AgreesForward

/-! ## Productions -/

namespace Grammar

/-- Behind the first token of a production, parts agree that agree wherever fewer tokens are
ahead. -/
abbrev AgreesInside (places : Relocation) (ending : Option LexError) (bound : Nat)
    (first second : Parse (Option α)) : Prop :=
  ∀ smaller < bound, AgreesForward places ending smaller first second

section

variable {expression otherExpression : Parse (Option Expression)}
  {block otherBlock : Parse (Option Block)}

theorem agrees_negation (inside : AgreesInside places ending bound expression otherExpression) :
    AgreesForward places ending bound (negation expression) (negation otherExpression) := by
  apply AgreesForward.production
  intro smaller less sign _
  refine (Agrees.require (inside smaller less).agrees).bind fun operand => ?_
  rw [relocate_expression, Expression.type_relocate]
  exact Agrees.checkType.bind fun _ => .pure

theorem agrees_binary (inside : AgreesInside places ending bound expression otherExpression) :
    AgreesForward places ending bound (binary expression) (binary otherExpression) := by
  apply AgreesForward.production
  intro smaller less sign op
  refine (Agrees.require (inside smaller less).agrees).bind fun left => ?_
  refine (Agrees.require (inside smaller less).agrees).bind fun right => ?_
  rw [relocate_expression, relocate_expression, Expression.type_relocate, Expression.type_relocate]
  refine Agrees.checkType.bind fun _ => ?_
  cases op.isLogical with
  | false => exact .pure
  | true => exact Agrees.checkType.bind fun _ => .pure

theorem agrees_nested (inside : AgreesInside places ending bound expression otherExpression) :
    AgreesForward places ending bound (nested expression) (nested otherExpression) := by
  apply AgreesForward.production
  intro smaller less sign _
  refine (Agrees.require (inside smaller less).agrees).bind fun inner => ?_
  exact Agrees.expect.bind fun _ => .pure

theorem agrees_readGlyph : AgreesForward places ending bound readGlyph readGlyph := by
  apply AgreesForward.production
  intro smaller less sign _
  exact .pure

theorem agrees_literal : AgreesForward places ending bound literal literal := by
  apply AgreesForward.production
  intro smaller less lexeme kind
  have same : (lexeme.relocate places).text = lexeme.text := rfl
  simp only [same]
  cases literalValue kind lexeme.text.toList with
  | ok value => exact .pure
  | error cause => exact .fail

/-- More levels than tokens are as good as any other number of them. -/
theorem agrees_expression {further otherFurther : Further} {levels other : Nat}
    (enough : bound < levels) (enoughOther : bound < other) :
    AgreesForward places ending bound (expressionAbove further levels)
      (expressionAbove otherFurther other) := by
  induction levels generalizing other bound with
  | zero => exact absurd enough (Nat.not_lt_zero bound)
  | succ levels inductionHypothesis =>
      cases other with
      | zero => exact absurd enoughOther (Nat.not_lt_zero bound)
      | succ other =>
          -- Behind its first token fewer tokens are ahead, so one level fewer is enough.
          have inside : AgreesInside places ending bound (expressionAbove further levels)
              (expressionAbove otherFurther other) :=
            fun smaller less => inductionHypothesis (by omega) (by omega)
          exact .firstOf_cons (agrees_negation inside) (.firstOf_cons (agrees_binary inside)
            (.firstOf_cons (agrees_nested inside) (.firstOf_cons agrees_readGlyph
              (.firstOf_cons agrees_literal .firstOf_nil))))

theorem agrees_semicolon {earlier : Lexeme} :
    Agrees places ending bound (semicolon earlier) (semicolon (earlier.relocate places)) :=
  Agrees.expect.bind fun _ => .pure

theorem agrees_condition (agrees : AgreesForward places ending bound expression otherExpression)
    {word : Lexeme} :
    Agrees places ending bound (condition expression word)
      (condition otherExpression (word.relocate places)) := by
  refine Agrees.expect.bind fun sign => ?_
  refine (Agrees.require agrees.agrees).bind fun test => ?_
  rw [relocate_expression, Expression.type_relocate]
  refine Agrees.checkType.bind fun _ => ?_
  exact Agrees.expect.bind fun _ => .pure

theorem agrees_emptyStatement :
    AgreesForward places ending bound emptyStatement emptyStatement := by
  apply AgreesForward.production
  intro smaller less sign _
  exact .pure

theorem agrees_moveStatement
    (inside : AgreesInside places ending bound expression otherExpression) :
    AgreesForward places ending bound (moveStatement expression)
      (moveStatement otherExpression) := by
  apply AgreesForward.production
  intro smaller less word direction
  refine (Agrees.require (inside smaller less).agrees).bind fun distance => ?_
  rw [relocate_expression, Expression.type_relocate]
  refine Agrees.checkType.bind fun _ => ?_
  exact agrees_semicolon.bind fun _ => .pure

theorem agrees_writeStatement
    (inside : AgreesInside places ending bound expression otherExpression) :
    AgreesForward places ending bound (writeStatement expression)
      (writeStatement otherExpression) := by
  apply AgreesForward.production
  intro smaller less word _
  refine (Agrees.require (inside smaller less).agrees).bind fun value => ?_
  rw [relocate_expression, Expression.type_relocate]
  refine Agrees.checkType.bind fun _ => ?_
  exact agrees_semicolon.bind fun _ => .pure

theorem agrees_gotoStatement : AgreesForward places ending bound gotoStatement gotoStatement := by
  apply AgreesForward.production
  intro smaller less word _
  refine Agrees.expect.bind fun label => ?_
  exact .ifVisible (agrees_semicolon.bind fun _ => .pure) .fail

theorem agrees_elseBranch (inside : AgreesInside places ending bound block otherBlock) :
    AgreesForward places ending bound (elseBranch block) (elseBranch otherBlock) := by
  apply AgreesForward.production
  intro smaller less word _
  exact Agrees.require (inside smaller less).agrees

theorem agrees_ifStatement (inside : AgreesInside places ending bound expression otherExpression)
    (insideBlock : AgreesInside places ending bound block otherBlock) :
    AgreesForward places ending bound (ifStatement expression block)
      (ifStatement otherExpression otherBlock) := by
  apply AgreesForward.production
  intro smaller less word _
  refine (agrees_condition (inside smaller less)).bind fun test => ?_
  refine (Agrees.require (insideBlock smaller less).agrees).bind fun thenBody => ?_
  have otherwise : AgreesForward places ending smaller (elseBranch block) (elseBranch otherBlock) :=
    agrees_elseBranch fun fewer below => insideBlock fewer (Nat.lt_trans below less)
  refine otherwise.agrees.bind fun found => ?_
  cases found <;> exact .pure

theorem agrees_whileStatement (inside : AgreesInside places ending bound expression otherExpression)
    (insideBlock : AgreesInside places ending bound block otherBlock) :
    AgreesForward places ending bound (whileStatement expression block)
      (whileStatement otherExpression otherBlock) := by
  apply AgreesForward.production
  intro smaller less word _
  refine (agrees_condition (inside smaller less)).bind fun test => ?_
  exact (Agrees.require (insideBlock smaller less).agrees).bind fun body => .pure

theorem agrees_haltStatement : AgreesForward places ending bound haltStatement haltStatement := by
  apply AgreesForward.production
  intro smaller less word _
  exact agrees_semicolon.bind fun _ => .pure

theorem agrees_block {statement otherStatement : Parse (Option Statement)}
    {others otherOthers : Parse (List Statement)} {limit other : Nat}
    (inside : AgreesInside places ending bound statement otherStatement) (enough : bound ≤ limit)
    (enoughOther : bound ≤ other) :
    AgreesForward places ending bound (blockAbove others statement limit)
      (blockAbove otherOthers otherStatement other) := by
  apply AgreesForward.production
  intro smaller less sign _
  refine (Agrees.modifyLabels (Environment.map_nest _)).bind fun _ => ?_
  refine (Agrees.many (inside smaller less) (by omega) (by omega)).bind fun statements => ?_
  refine (Agrees.modifyLabels (Environment.map_unnest _)).bind fun _ => ?_
  rw [relocate_statements]
  exact Agrees.expect.bind fun _ => .pure

end

section

variable {further otherFurther : Further}

theorem agrees_statement {limit otherLimit levels otherLevels : Nat} (enough : bound < levels)
    (enoughOther : bound < otherLevels) (within : bound ≤ limit)
    (withinOther : bound ≤ otherLimit) :
    AgreesForward places ending bound (statementAbove further limit levels)
      (statementAbove otherFurther otherLimit otherLevels) := by
  induction levels generalizing otherLevels bound with
  | zero => exact absurd enough (Nat.not_lt_zero bound)
  | succ levels inductionHypothesis =>
      cases otherLevels with
      | zero => exact absurd enoughOther (Nat.not_lt_zero bound)
      | succ otherLevels =>
          have inside : AgreesInside places ending bound (expressionAbove further limit)
              (expressionAbove otherFurther otherLimit) :=
            fun smaller less => agrees_expression (by omega) (by omega)
          have insideBlock : AgreesInside places ending bound
              (blockAbove further.statements (statementAbove further limit levels) limit)
              (blockAbove otherFurther.statements
                (statementAbove otherFurther otherLimit otherLevels) otherLimit) := by
            intro smaller less
            refine agrees_block (fun fewer below => ?_) (by omega) (by omega)
            exact inductionHypothesis (by omega) (by omega) (by omega) (by omega)
          exact .firstOf_cons agrees_emptyStatement (.firstOf_cons (agrees_moveStatement inside)
            (.firstOf_cons (agrees_writeStatement inside) (.firstOf_cons agrees_gotoStatement
              (.firstOf_cons (agrees_ifStatement inside insideBlock)
                (.firstOf_cons (agrees_whileStatement inside insideBlock)
                  (.firstOf_cons agrees_haltStatement .firstOf_nil))))))

theorem agrees_labelDefinition {block otherBlock : Parse (Option Block)}
    (inside : AgreesInside places ending bound block otherBlock) :
    AgreesForward places ending bound (labelDefinition block) (labelDefinition otherBlock) := by
  apply AgreesForward.production
  intro smaller less label _
  refine Agrees.expect.bind fun _ => ?_
  refine (Agrees.modifyLabels fun labels => labels.map_define _ _ _).bind fun _ => ?_
  refine (Agrees.require (inside smaller less).agrees).bind fun body => ?_
  exact (Agrees.modifyLabels fun labels => labels.map_define _ _ _).bind fun _ => .pure

theorem agrees_item {limit other : Nat} (enough : bound < limit) (enoughOther : bound < other) :
    AgreesForward places ending bound (itemAbove further limit) (itemAbove otherFurther other) := by
  have statements : ∀ smaller ≤ bound, AgreesForward places ending smaller
      (statementAbove further limit limit) (statementAbove otherFurther other other) :=
    fun smaller less => agrees_statement (by omega) (by omega) (by omega) (by omega)
  have blocks : AgreesInside places ending bound
      (blockAbove further.statements (statementAbove further limit limit) limit)
      (blockAbove otherFurther.statements (statementAbove otherFurther other other) other) :=
    fun smaller less =>
      agrees_block (fun fewer below => statements fewer (by omega)) (by omega) (by omega)
  refine .orElse (agrees_labelDefinition blocks) (fun _ _ _ => .pure) ?_
  exact .orElse (statements bound (Nat.le_refl bound)) (fun _ _ _ => .pure) .nothing

/-- More levels and repetitions than tokens lead to the same program or the same error. -/
theorem agrees_program {limit other : Nat} (enough : bound < limit) (enoughOther : bound < other) :
    Agrees places ending bound (programAbove further limit) (programAbove otherFurther other) := by
  refine (Agrees.many (agrees_item enough enoughOther) enough enoughOther).bind fun items => ?_
  refine Agrees.hasLexeme.bind fun follows => ?_
  cases follows with
  | false => exact .pure
  | true =>
      refine Agrees.nextLexeme.bind fun found => ?_
      cases found with
      | none => exact .pure
      | some lexeme => exact .fail

end

/-- The same tokens at other places come to the same program or the same error at these places. -/
theorem programAbove_relocate {parser moved : Parser} {lexemes : List Lexeme} {limit other : Nat}
    (further otherFurther : Further) (stands : parser.At ⟨lexemes, .empty⟩ [] ending)
    (standsMoved : moved.At ⟨lexemes.map (Lexeme.relocate places), .empty⟩ []
      (ending.map (LexError.relocate places)))
    (enough : lexemes.length < limit) (enoughOther : lexemes.length < other) :
    resultOf (programAbove otherFurther other moved) =
      relocate places (resultOf (programAbove further limit parser)) := by
  obtain ⟨result, behind, outcome, -⟩ :=
    agrees_program enough enoughOther ⟨lexemes, .empty⟩ (Nat.le_refl _)
  obtain ⟨_, -, found, -⟩ := outcome.here _ _ stands
  obtain ⟨_, -, foundMoved, -⟩ := outcome.there _ _ standsMoved
  rw [found, foundMoved]

theorem program_relocate {parser moved : Parser} {lexemes : List Lexeme} {limit other : Nat}
    (stands : parser.At ⟨lexemes, .empty⟩ [] ending)
    (standsMoved : moved.At ⟨lexemes.map (Lexeme.relocate places), .empty⟩ []
      (ending.map (LexError.relocate places)))
    (enough : lexemes.length < limit) (enoughOther : lexemes.length < other) :
    resultOf (program other moved) = relocate places (resultOf (program limit parser)) := by
  rw [program_eq_above, program_eq_above]
  exact programAbove_relocate .nothing .nothing stands standsMoved enough enoughOther

end Grammar

end TapeMachine
