import TapeMachine.Grammar.Production
import TapeMachine.Proofs.Token.Outlook

/-!
Contract: reasoning about productions as steps along a list of tokens.

Owns: the place of a parser (the tokens that follow and the visible labels), what it means that a
step meets a postcondition, and a rule for each of the parts that productions are made of.

A postcondition sees a result and the place behind it. Marks never occur in one: every rule hands
on that a step leaves the marks as they were, also when it ends with an error.
-/

namespace TapeMachine

/-- What a production can depend on. -/
structure Place where
  ahead : List Lexeme
  labels : Environment (Option Block)

/-- The parser stands at a place, under some marks, in an input with some ending. -/
structure Parser.At (parser : Parser) (place : Place) (marked : List (List Lexeme))
    (ending : Option LexError) : Prop where
  steady : parser.lexer.Steady
  outlook : parser.lexer.outlook = ⟨place.ahead, marked, ending⟩
  labels : parser.labels = place.labels

/-- A parser stands at one place only. -/
theorem Parser.At.unique {parser : Parser} {place other : Place} {marked marks : List (List Lexeme)}
    {ending final : Option LexError} (first : parser.At place marked ending)
    (second : parser.At other marks final) : place = other := by
  have same := first.outlook.symm.trans second.outlook
  have ahead : place.ahead = other.ahead := congrArg Outlook.ahead same
  have labels : place.labels = other.labels := first.labels.symm.trans second.labels
  cases place
  cases other
  simp only at ahead labels
  rw [ahead, labels]

def resultOf {α : Type} : EStateM.Result ParseError Parser α → Except ParseError α
  | .ok value _ => .ok value
  | .error error _ => .error error

/-- The state behind a step, whichever way it ends. -/
def stateOf {α : Type} : EStateM.Result ParseError Parser α → Parser
  | .ok _ parser => parser
  | .error _ parser => parser

/-- From a place, a step leads to a result and a place that satisfy a postcondition. -/
def Meets {α : Type} (ending : Option LexError) (step : Parse α) (place : Place)
    (post : Except ParseError α → Place → Prop) : Prop :=
  ∀ parser marked, parser.At place marked ending →
    ∃ behind, (stateOf (step parser)).At behind marked ending ∧
      post (resultOf (step parser)) behind

namespace Meets

open Grammar

variable {α β : Type} {ending : Option LexError} {place : Place}

/-! ## Sequences of steps -/

theorem mono {step : Parse α} {weak strong : Except ParseError α → Place → Prop}
    (met : Meets ending step place strong)
    (weaker : ∀ result behind, strong result behind → weak result behind) :
    Meets ending step place weak := by
  intro parser marked stands
  obtain ⟨behind, after, result⟩ := met parser marked stands
  exact ⟨behind, after, weaker _ _ result⟩

/-- Two postconditions that are met are met by one result and one place. -/
theorem and {step : Parse α} {first second : Except ParseError α → Place → Prop}
    (metFirst : Meets ending step place first) (metSecond : Meets ending step place second) :
    Meets ending step place fun result behind => first result behind ∧ second result behind := by
  intro parser marked stands
  obtain ⟨behind, after, resultFirst⟩ := metFirst parser marked stands
  obtain ⟨other, afterOther, resultSecond⟩ := metSecond parser marked stands
  obtain rfl := after.unique afterOther
  exact ⟨behind, after, resultFirst, resultSecond⟩

theorem pure {value : α} {post : Except ParseError α → Place → Prop}
    (result : post (.ok value) place) : Meets ending (Pure.pure value) place post :=
  fun _ _ stands => ⟨place, stands, result⟩

theorem fail {lexeme : Lexeme} {cause : ParseCause} {post : Except ParseError α → Place → Prop}
    (result : post (.error (.atLexeme lexeme cause)) place) :
    Meets ending (Grammar.fail lexeme cause) place post :=
  fun _ _ stands => ⟨place, stands, result⟩

/-- What comes second begins where the first ended, unless that is an error. -/
theorem bind {step : Parse α} {next : α → Parse β} {post : Except ParseError β → Place → Prop}
    (first : Meets ending step place fun result behind =>
      match result with
      | .ok value => Meets ending (next value) behind post
      | .error error => post (.error error) behind) :
    Meets ending (step >>= next) place post := by
  intro parser marked stands
  obtain ⟨behind, after, result⟩ := first parser marked stands
  show ∃ behind, (stateOf (EStateM.bind step next parser)).At behind marked ending ∧
    post (resultOf (EStateM.bind step next parser)) behind
  unfold EStateM.bind
  cases ran : step parser with
  | error error parser =>
      rw [ran] at after result
      exact ⟨behind, after, result⟩
  | ok value parser =>
      rw [ran] at after result
      exact result parser marked after

theorem labels {post : Except ParseError Parser → Place → Prop}
    (result : ∀ parser : Parser, parser.labels = place.labels → post (.ok parser) place) :
    Meets ending get place post :=
  fun parser _ stands => ⟨place, stands, result parser stands.labels⟩

theorem modifyLabels {change : Environment (Option Block) → Environment (Option Block)}
    {post : Except ParseError Unit → Place → Prop}
    (result : post (.ok ()) ⟨place.ahead, change place.labels⟩) :
    Meets ending (Grammar.modifyLabels change) place post :=
  fun _ _ stands =>
    ⟨⟨place.ahead, change place.labels⟩,
      ⟨stands.steady, stands.outlook, congrArg change stands.labels⟩, result⟩

/-! ## Tokens -/

theorem nextLexeme {post : Except ParseError (Option Lexeme) → Place → Prop}
    (token : ∀ lexeme others, place.ahead = lexeme :: others →
      post (.ok (some lexeme)) ⟨others, place.labels⟩)
    (finished : place.ahead = [] → ending = none → post (.ok none) place)
    (unknown : ∀ error, place.ahead = [] → ending = some error →
      post (.error (.ofLexError error)) place) :
    Meets ending Grammar.nextLexeme place post := by
  rintro ⟨lexer, labels⟩ marked ⟨steady, outlook, visible⟩
  obtain ⟨found, steadyNext, after⟩ := Lexer.next_spec steady
  simp only at steady outlook visible found steadyNext after
  rw [outlook] at found after
  unfold Outlook.next at found after
  unfold Grammar.nextLexeme
  dsimp only
  cases step : lexer.next with
  | mk result next =>
      rw [step] at found after steadyNext
      simp only at found after steadyNext
      cases ahead : place.ahead with
      | cons lexeme others =>
          simp only [ahead] at found after
          subst found
          exact ⟨⟨others, place.labels⟩, ⟨steadyNext, after, visible⟩, token lexeme others ahead⟩
      | nil =>
          cases ends : ending with
          | none =>
              simp only [ahead, ends] at found after
              subst found
              exact ⟨place, ⟨steadyNext, after.trans (by rw [ahead]), visible⟩, finished ahead ends⟩
          | some error =>
              simp only [ahead, ends] at found after
              subst found
              exact ⟨place, ⟨steadyNext, after.trans (by rw [ahead]), visible⟩,
                unknown error ahead ends⟩

theorem hasLexeme {post : Except ParseError Bool → Place → Prop}
    (token : place.ahead ≠ [] → post (.ok true) place)
    (finished : place.ahead = [] → ending = none → post (.ok false) place)
    (unknown : ∀ error, place.ahead = [] → ending = some error →
      post (.error (.ofLexError error)) place) :
    Meets ending Grammar.hasLexeme place post := by
  rintro ⟨lexer, labels⟩ marked ⟨steady, outlook, visible⟩
  obtain ⟨found, steadyNext, after⟩ := Lexer.hasNext_spec steady
  simp only at steady outlook visible found steadyNext after
  rw [outlook] at found after
  unfold Outlook.hasNext at found
  unfold Grammar.hasLexeme
  dsimp only
  cases step : lexer.hasNext with
  | mk result next =>
      rw [step] at found after steadyNext
      simp only at found after steadyNext
      cases ahead : place.ahead with
      | cons lexeme others =>
          simp only [ahead] at found
          subst found
          exact ⟨place, ⟨steadyNext, after, visible⟩, token (by simp [ahead])⟩
      | nil =>
          cases ends : ending with
          | none =>
              simp only [ahead, ends] at found
              subst found
              exact ⟨place, ⟨steadyNext, ends ▸ after, visible⟩, finished ahead ends⟩
          | some error =>
              simp only [ahead, ends] at found
              subst found
              exact ⟨place, ⟨steadyNext, ends ▸ after, visible⟩, unknown error ahead ends⟩

/-! ## Productions -/

/-- An attempt that yields nothing goes back to the tokens it began with. -/
theorem attempt {step : Parse (Option α)} {post : Except ParseError (Option α) → Place → Prop}
    (met : Meets ending step place fun result behind =>
      match result with
      | .ok none => post (.ok none) ⟨place.ahead, behind.labels⟩
      | result => post result behind) :
    Meets ending (Grammar.attempt step) place post := by
  rintro ⟨lexer, labels⟩ marked ⟨steady, outlook, visible⟩
  simp only at steady outlook visible
  obtain ⟨steadyOpen, opened⟩ := Lexer.openMark_spec steady
  rw [outlook] at opened
  obtain ⟨behind, ⟨steadyBehind, outlookBehind, visibleBehind⟩, result⟩ :=
    met ⟨lexer.openMark, labels⟩ (place.ahead :: marked) ⟨steadyOpen, opened, visible⟩
  unfold Grammar.attempt
  dsimp only
  cases ran : step ⟨lexer.openMark, labels⟩ with
  | error error parser =>
      rw [ran] at steadyBehind outlookBehind visibleBehind result
      obtain ⟨steadyClose, closed⟩ := Lexer.closeMark_spec steadyBehind
      rw [outlookBehind] at closed
      exact ⟨behind, ⟨steadyClose, closed, visibleBehind⟩, result⟩
  | ok found parser =>
      rw [ran] at steadyBehind outlookBehind visibleBehind result
      cases found with
      | some value =>
          obtain ⟨steadyClose, closed⟩ := Lexer.closeMark_spec steadyBehind
          rw [outlookBehind] at closed
          exact ⟨behind, ⟨steadyClose, closed, visibleBehind⟩, result⟩
      | none =>
          obtain ⟨steadyBack, back⟩ := Lexer.rewindMark_spec steadyBehind
          obtain ⟨steadyClose, closed⟩ := Lexer.closeMark_spec steadyBack
          rw [back, outlookBehind] at closed
          exact ⟨⟨place.ahead, behind.labels⟩, ⟨steadyClose, closed, visibleBehind⟩, result⟩

theorem production {select : Kind → Option β} {body : Lexeme → β → Parse α}
    {post : Except ParseError (Option α) → Place → Prop}
    (begins : ∀ lexeme others choice, place.ahead = lexeme :: others →
      select lexeme.kind = some choice →
      Meets ending (body lexeme choice) ⟨others, place.labels⟩ fun result behind =>
        match result with
        | .ok value => post (.ok (some value)) behind
        | .error error => post (.error error) behind)
    (refuses : (∀ lexeme others, place.ahead = lexeme :: others → select lexeme.kind = none) →
      post (.ok none) place)
    (unknown : ∀ error, place.ahead = [] → ending = some error →
      post (.error (.ofLexError error)) place) :
    Meets ending (Grammar.production select body) place post := by
  refine attempt (bind (nextLexeme ?_ ?_ ?_))
  · intro lexeme others ahead
    cases selected : select lexeme.kind with
    | none =>
        simp only [selected]
        refine pure (refuses ?_)
        intro front rest same
        rw [ahead] at same
        obtain ⟨rfl, -⟩ := List.cons.inj same
        exact selected
    | some choice =>
        simp only [selected]
        refine bind ((begins lexeme others choice ahead selected).mono ?_)
        intro result behind met
        cases result with
        | ok value => exact pure met
        | error error => exact met
  · intro ahead _
    refine pure (refuses ?_)
    intro front rest same
    simp [ahead] at same
  · exact unknown

end Meets

end TapeMachine
