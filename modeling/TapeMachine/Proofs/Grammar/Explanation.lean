import TapeMachine.Proofs.Grammar.Soundness
import TapeMachine.Proofs.Syntax.Continuation

/-!
Contract: steps of parsing that can account for their errors.

Owns: what a production that lacks a part has read and what it owes, what an error says about the
tokens of a text, and a rule for each of the parts that productions are made of.

Does not own: the productions; `Proofs.Grammar.Diagnosis` goes through them.

Wherever the parser stands, the tokens behind it are the beginning of a program, and what may follow
is known. If a production cannot go on, nothing that may follow begins like the tokens ahead.
-/

open scoped Computability

namespace TapeMachine

/-! ## Errors and tokens -/

/-- What a production that lacks a part has read, from its first token on. -/
def Missing.begun : Missing → Language Lexeme
  | .moveDistance => directionToken
  | .writtenValue => ofKind (.keyword .writeWord)
  | .semicolon =>
      directionToken * expressionTokens + ofKind (.keyword .writeWord) * expressionTokens +
        ofKind (.keyword .gotoWord) * ofKind .identifier + ofKind (.keyword .haltWord)
  | .gotoLabel => ofKind (.keyword .gotoWord)
  | .conditionOpening => ofKind (.keyword .ifWord) + ofKind (.keyword .whileWord)
  | .condition => ofKind (.symbol .openParen)
  | .conditionClosing => ofKind (.symbol .openParen) * expressionTokens
  | .ifBlock => ofKind (.keyword .ifWord) * conditionTokens
  | .elseBlock => ofKind (.keyword .elseWord)
  | .whileBlock => ofKind (.keyword .whileWord) * conditionTokens
  | .labelColon => ofKind .identifier
  | .labelBlock => ofKind .identifier * ofKind (.symbol .colon)
  | .blockClosing => ofKind (.symbol .openBrace) * statementTokens∗
  | .operand => ofKind (.symbol .bang)
  | .leftOperand => operatorToken
  | .rightOperand => operatorToken * expressionTokens
  | .nestedExpression => ofKind (.symbol .openParen)
  | .nestedClosing => ofKind (.symbol .openParen) * expressionTokens

/-- The rest of the production, from the missing part on. -/
def Missing.owed : Missing → Language Lexeme
  | .moveDistance | .writtenValue => expressionTokens * ofKind (.symbol .semicolon)
  | .semicolon => ofKind (.symbol .semicolon)
  | .gotoLabel => ofKind .identifier * ofKind (.symbol .semicolon)
  | .conditionOpening => conditionTokens * blockTokens
  | .condition | .nestedExpression => expressionTokens * ofKind (.symbol .closeParen)
  | .conditionClosing | .nestedClosing => ofKind (.symbol .closeParen)
  | .ifBlock | .elseBlock | .whileBlock | .labelBlock => blockTokens
  | .labelColon => ofKind (.symbol .colon) * blockTokens
  | .blockClosing => ofKind (.symbol .closeBrace)
  | .operand | .rightOperand => expressionTokens
  | .leftOperand => expressionTokens * expressionTokens

/-- The production that lacks the part. -/
def Missing.production : Missing → Language Lexeme
  | .moveDistance | .writtenValue | .semicolon | .gotoLabel | .conditionOpening | .ifBlock
  | .whileBlock => statementTokens
  | .condition | .conditionClosing => conditionTokens
  | .elseBlock => otherwiseTokens
  | .labelColon | .labelBlock => itemTokens
  | .blockClosing => blockTokens
  | .operand | .leftOperand | .rightOperand | .nestedExpression | .nestedClosing =>
      expressionTokens

/-- What has been read of a production and what is owed make it complete. -/
theorem Missing.mem_production {part : Missing} {begun others : List Lexeme}
    (lacks : begun ∈ part.begun) (follows : others ∈ part.owed) :
    begun ++ others ∈ part.production := by
  have joined := Language.append_mem_mul lacks follows
  generalize begun ++ others = tokens at joined ⊢
  have withoutElse := @conditional_without_else tokens
  cases part <;> simp only [Missing.begun, owed, production, mul_assoc] at joined ⊢
  case operand | leftOperand | rightOperand | nestedExpression | nestedClosing =>
    rw [expressionTokens_eq]
    simp only [Language.mem_add, joined, true_or, or_true]
  case condition | conditionClosing => rwa [conditionTokens_eq]
  case blockClosing => rwa [blockTokens_eq]
  case elseBlock => exact .inr joined
  case labelColon | labelBlock =>
    rw [itemTokens_eq]
    exact .inl joined
  all_goals
    rw [statementTokens_eq]
    simp only [add_mul, mul_assoc, Language.mem_add] at joined ⊢
    tauto

theorem Missing.completable_owed (part : Missing) : Completable part.owed := by
  cases part <;> simp [owed]

theorem Missing.nil_not_mem_owed (part : Missing) : [] ∉ part.owed := by
  cases part <;> simp [owed]

/-- A production that lacks a part is unfinished. -/
theorem Missing.unfinished {part : Missing} {begun : List Lexeme} (lacks : begun ∈ part.begun) :
    ∃ others, others ≠ [] ∧ begun ++ others ∈ part.production := by
  obtain ⟨others, member, -⟩ := part.completable_owed
  exact ⟨others, fun empty => part.nil_not_mem_owed (empty ▸ member), mem_production lacks member⟩

/-- Whether an error is about the order of tokens, and not about types, labels or values. -/
def ParseCause.IsSyntax (cause : ParseCause) : Prop :=
  cause = .unexpectedToken ∨ ∃ part, cause = .missing part

namespace ParseError

/-- The error is at the first token that is wrong: what stands before it is the beginning of a
program, and with it, it is none. A part that is missing is one of a production that what stands
before it breaks off. -/
def AtFirstWrong (error : ParseError) (tokens : List Lexeme) : Prop :=
  ∃ before lexeme after, tokens = before ++ lexeme :: after ∧
    error = .atLexeme lexeme error.cause ∧ Viable before ∧
    (∀ others, before ++ lexeme :: others ∉ programTokens) ∧
    ∀ part, error.cause = .missing part → ∃ front, ∃ begun ∈ part.begun, before = front ++ begun

/-- All tokens are the beginning of a program, but no program, and the error is at the first token
of the production that they break off. -/
def AtUnfinished (error : ParseError) (tokens : List Lexeme) : Prop :=
  Viable tokens ∧ tokens ∉ programTokens ∧
    ∃ front begun earlier part, tokens = front ++ begun ∧ begun.head? = some earlier ∧
      error = .atLexeme earlier (.missing part) ∧ begun ∈ part.begun ∧
      ∃ others, others ≠ [] ∧ begun ++ others ∈ part.production

end ParseError

/-- How an error comes from the tokens of a text and what ends them. -/
inductive Explained (tokens : List Lexeme) (ending : Option LexError) : ParseError → Prop where
  | lexical {error : LexError} (ends : ending = some error) :
      Explained tokens ending (.ofLexError error)
  /-- A check of types, labels or values. -/
  | check {lexeme : Lexeme} {cause : ParseCause} (member : lexeme ∈ tokens)
      (other : ¬ cause.IsSyntax) : Explained tokens ending (.atLexeme lexeme cause)
  | wrong {error : ParseError} (placed : error.AtFirstWrong tokens) : Explained tokens ending error
  | ranOut {error : ParseError} (ends : ending = none) (placed : error.AtUnfinished tokens) :
      Explained tokens ending error

/-! ## Places in a text -/

section Places

variable {tokens : List Lexeme} {ending : Option LexError} {place next : Place}
  {rest after : Language Lexeme}

/-- At the place, the rest of the tokens is to be continued by one of the sequences. -/
def Stands (tokens : List Lexeme) (place : Place) (rest : Language Lexeme) : Prop :=
  ∃ seen, tokens = seen ++ place.ahead ∧ Awaits seen place.ahead rest

theorem Stands.start (tokens : List Lexeme) (labels : Environment (Option Block)) :
    Stands tokens ⟨tokens, labels⟩ programTokens :=
  ⟨[], rfl, .start tokens⟩

theorem Stands.of_ahead (stands : Stands tokens place rest) (same : next.ahead = place.ahead) :
    Stands tokens next rest := by
  obtain ⟨seen, located, awaits⟩ := stands
  exact ⟨seen, same ▸ located, same ▸ awaits⟩

theorem Stands.mem {lexeme : Lexeme} {others : List Lexeme} (stands : Stands tokens place rest)
    (ahead : place.ahead = lexeme :: others) : lexeme ∈ tokens := by
  obtain ⟨seen, located, -⟩ := stands
  simp [located, ahead]

theorem Stands.past {lexeme : Lexeme} (stands : Stands tokens place rest)
    (ahead : place.ahead = lexeme :: next.ahead)
    (completable : Completable rest → Completable after)
    (behind : ∀ others, lexeme :: others ∈ rest ↔ others ∈ after) : Stands tokens next after := by
  obtain ⟨seen, located, awaits⟩ := stands
  rw [ahead] at located awaits
  exact ⟨seen ++ [lexeme], by simp [located], awaits.past (completable awaits.completable) behind⟩

theorem Stands.narrow (stands : Stands tokens place rest)
    (completable : Completable rest → Completable after) (part : ∀ others ∈ after, others ∈ rest)
    (only : ∀ others ∈ rest, others.head? = place.ahead.head? → others ∈ after) :
    Stands tokens place after := by
  obtain ⟨seen, located, awaits⟩ := stands
  exact ⟨seen, located, awaits.narrow (completable awaits.completable) part only⟩

/-- The tokens in front of a place end with those of a production that lacks a part. -/
def BreaksOff (tokens ahead : List Lexeme) (earlier : Lexeme) (part : Missing) : Prop :=
  ∃ front begun, tokens = front ++ begun ++ ahead ∧ begun.head? = some earlier ∧ begun ∈ part.begun

theorem Stands.breaksOff {earlier : Lexeme} (inner : List Lexeme) {ahead : List Lexeme}
    {part : Missing} (stands : Stands tokens place rest)
    (split : place.ahead = earlier :: inner ++ ahead) (begun : earlier :: inner ∈ part.begun) :
    BreaksOff tokens ahead earlier part := by
  obtain ⟨seen, located, -⟩ := stands
  exact ⟨seen, earlier :: inner, by simp [located, split], rfl, begun⟩

/-- Where nothing that may follow begins like the tokens ahead, the next token is wrong. -/
theorem Explained.of_stuck {lexeme : Lexeme} {others : List Lexeme} {cause : ParseCause}
    (stands : Stands tokens place rest) (stuck : Stuck rest place.ahead)
    (ahead : place.ahead = lexeme :: others)
    (lacks : ∀ seen, tokens = seen ++ place.ahead → ∀ part, cause = .missing part →
      ∃ front, ∃ begun ∈ part.begun, seen = front ++ begun) :
    Explained tokens ending (.atLexeme lexeme cause) := by
  obtain ⟨seen, located, awaits⟩ := stands
  refine .wrong ⟨seen, lexeme, others, ahead ▸ located, rfl, awaits.viable, ?_,
    lacks seen located⟩
  exact fun others => awaits.not_mem_of_stuck stuck (by simp [ahead])

/-- A missing part is reported at the next token, or at the first token of the production that
lacks it if the input has run out. -/
theorem Explained.missing {earlier : Lexeme} {part : Missing} (found : Option Lexeme)
    (stands : Stands tokens place rest) (stuck : Stuck rest place.ahead)
    (breaksOff : BreaksOff tokens place.ahead earlier part) (next : place.ahead.head? = found)
    (ends : found = none → ending = none) :
    Explained tokens ending (.atLexeme (found.getD earlier) (.missing part)) := by
  obtain ⟨front, begun, split, first, lacks⟩ := breaksOff
  cases ahead : place.ahead with
  | cons lexeme others =>
      obtain rfl : some lexeme = found := by simpa [ahead] using next
      refine .of_stuck stands stuck ahead ?_
      rintro seen located _ ⟨⟩
      exact ⟨front, begun, lacks, List.append_cancel_right (located.symm.trans split)⟩
  | nil =>
      obtain rfl : none = found := by simpa [ahead] using next
      obtain ⟨seen, located, awaits⟩ := stands
      rw [ahead, List.append_nil] at located split
      subst located
      refine .ranOut (ends rfl) ⟨awaits.viable, ?_, front, begun, earlier, part, split, first, rfl,
        lacks, Missing.unfinished lacks⟩
      simpa using @Awaits.not_mem_of_stuck _ _ _ awaits stuck [] (by simp [ahead])

/-- No token that a statement begins with is ahead. -/
def Idle (ahead : List Lexeme) : Prop :=
  ∀ lexeme ∈ ahead.head?, ¬ lexeme.kind.OpensStatement

theorem idle_nil : Idle [] := by
  simp [Idle]

/-- Where no statement begins, the statements of a block are over. -/
theorem Stands.closing (stands : Stands tokens place
      (statementTokens∗ * (ofKind (.symbol .closeBrace) * after)))
    (idle : Idle place.ahead) : Stands tokens place (ofKind (.symbol .closeBrace) * after) := by
  refine stands.narrow (by simp) (fun others closes => kstar_mul _ _ ▸ .inl closes) ?_
  intro others inside same
  rw [kstar_mul, Language.mem_add] at inside
  rcases inside with closes | further
  · exact closes
  · cases others with
    | nil => simp at further
    | cons lexeme others =>
        exact absurd (opensStatement_of_cons_mem further) (idle lexeme same.symm)

end Places

/-! ## Steps whose errors are explained -/

/-- What holds behind a step; an error of it is explained. -/
def Explains {α : Type} (tokens : List Lexeme) (ending : Option LexError) (step : Parse α)
    (place : Place) (good : α → Place → Prop) : Prop :=
  Meets ending step place fun result behind =>
    match result with
    | .ok value => good value behind
    | .error error => Explained tokens ending error

/-- Nothing, at the place where a step began, or something, and what may follow then. -/
def Offer {α : Type} (tokens : List Lexeme) (place : Place) (after : Language Lexeme)
    (refused : Prop) : Option α → Place → Prop
  | none, behind => behind = place ∧ refused
  | some _, behind => Stands tokens behind after

/-- The same, and what has been read is in a language. -/
def Delivers {α : Type} (tokens : List Lexeme) (place : Place) (language after : Language Lexeme)
    (refused : Prop) : Option α → Place → Prop
  | none, behind => behind = place ∧ refused
  | some _, behind => Stands tokens behind after ∧
      ∃ used ∈ language, place.ahead = used ++ behind.ahead

theorem Offer.weaken {α : Type} {tokens : List Lexeme} {place behind : Place}
    {after : Language Lexeme} {strong weak : Prop} {result : Option α}
    (offered : Offer tokens place after strong result behind) (weaker : strong → weak) :
    Offer tokens place after weak result behind := by
  cases result with
  | none => exact ⟨offered.1, weaker offered.2⟩
  | some value => exact offered

/-- No token of the kind that a production begins with is ahead. -/
def Refuses {β : Type} (select : Kind → Option β) (ahead : List Lexeme) : Prop :=
  ∀ lexeme ∈ ahead.head?, select lexeme.kind = none

namespace Explains

open Grammar

variable {α β : Type} {tokens : List Lexeme} {ending : Option LexError} {place : Place}
  {rest after : Language Lexeme}

theorem mono {step : Parse α} {weak strong : α → Place → Prop}
    (explains : Explains tokens ending step place strong)
    (weaker : ∀ value behind, strong value behind → weak value behind) :
    Explains tokens ending step place weak :=
  Meets.mono explains fun result behind met =>
    match result with
    | .ok value => weaker value behind met
    | .error _ => met

theorem and_ensures {step : Parse α} {good also : α → Place → Prop}
    (explains : Explains tokens ending step place good)
    (ensures : Ensures ending step place also) :
    Explains tokens ending step place fun value behind => good value behind ∧ also value behind :=
  Meets.mono (Meets.and explains ensures) fun result _ met =>
    match result with
    | .ok _ => met
    | .error _ => met.1

theorem pure {value : α} {good : α → Place → Prop} (result : good value place) :
    Explains tokens ending (Pure.pure value) place good :=
  Meets.pure result

theorem modifyLabels {change : Environment (Option Block) → Environment (Option Block)} :
    Explains tokens ending (Grammar.modifyLabels change) place fun _ behind =>
      behind.ahead = place.ahead :=
  Meets.modifyLabels rfl

theorem check {lexeme : Lexeme} {cause : ParseCause} {good : α → Place → Prop}
    (member : lexeme ∈ tokens) (other : ¬ cause.IsSyntax) :
    Explains tokens ending (Grammar.fail lexeme cause) place good :=
  Meets.fail (.check member other)

theorem bind {step : Parse α} {next : α → Parse β} {middle : α → Place → Prop}
    {good : β → Place → Prop} (first : Explains tokens ending step place middle)
    (second : ∀ value behind, middle value behind →
      Explains tokens ending (next value) behind good) :
    Explains tokens ending (step >>= next) place good :=
  Meets.bind (Meets.mono first fun result behind met =>
    match result with
    | .ok value => second value behind met
    | .error _ => met)

theorem failMissing {earlier : Lexeme} {part : Missing} {good : α → Place → Prop}
    (stands : Stands tokens place rest) (stuck : Stuck rest place.ahead)
    (breaksOff : BreaksOff tokens place.ahead earlier part) :
    Explains tokens ending (Grammar.failMissing earlier part) place good := by
  refine Meets.bind (Meets.nextLexeme ?_ ?_ fun _ _ ends => .lexical ends)
  · intro lexeme others ahead
    exact Meets.fail (.missing (some lexeme) stands stuck breaksOff (by simp [ahead]) (by simp))
  · intro finished ends
    exact Meets.fail (.missing none stands stuck breaksOff (by simp [finished]) fun _ => ends)

theorem expect {kind : Kind} {earlier : Lexeme} {part : Missing}
    (stands : Stands tokens place (ofKind kind * after))
    (breaksOff : BreaksOff tokens place.ahead earlier part) :
    Explains tokens ending (Grammar.expect kind earlier part) place fun lexeme behind =>
      lexeme.kind = kind ∧ place.ahead = lexeme :: behind.ahead ∧ Stands tokens behind after := by
  have stuck (other : ∀ lexeme ∈ place.ahead.head?, lexeme.kind ≠ kind) :
      Stuck (ofKind kind * after) place.ahead :=
    stuck_of (by simp) fun lexeme member => by simp [other lexeme member]
  refine Meets.bind (Meets.nextLexeme ?_ ?_ fun _ _ ends => .lexical ends)
  · intro lexeme others ahead
    by_cases wanted : lexeme.kind = kind
    · simp only [wanted, ↓reduceIte]
      refine Meets.pure ⟨wanted, ahead, ?_⟩
      exact stands.past ahead (fun completable => (completable_mul_iff.mp completable).2)
        (by simp [wanted])
    · simp only [wanted, ↓reduceIte]
      exact Meets.fail (.missing (some lexeme) stands (stuck (by simp [ahead, wanted])) breaksOff
        (by simp [ahead]) (by simp))
  · intro finished ends
    exact Meets.fail (.missing none stands (stuck (by simp [finished])) breaksOff
      (by simp [finished]) fun _ => ends)

theorem checkType {found wanted : ValueType} {lexeme : Lexeme} {mismatch : TypeMismatch}
    (member : lexeme ∈ tokens) :
    Explains tokens ending (Grammar.checkType found wanted lexeme mismatch) place fun _ behind =>
      behind = place := by
  unfold Grammar.checkType
  split
  · exact pure rfl
  · exact check member (by simp [ParseCause.IsSyntax])

theorem require {step : Parse (Option α)} {language : Language Lexeme} {earlier : Lexeme}
    {part : Missing}
    (explains : Explains tokens ending step place
      (Delivers tokens place language after (Stuck rest place.ahead)))
    (stands : Stands tokens place rest) (breaksOff : BreaksOff tokens place.ahead earlier part) :
    Explains tokens ending (Grammar.require step earlier part) place fun _ behind =>
      Stands tokens behind after ∧ ∃ used ∈ language, place.ahead = used ++ behind.ahead := by
  apply bind explains
  intro result behind delivered
  cases result with
  | some value => exact pure delivered
  | none =>
      obtain ⟨rfl, stuck⟩ := delivered
      exact failMissing stands stuck breaksOff

theorem production {select : Kind → Option β} {body : Lexeme → β → Parse α}
    (begins : ∀ sign next choice, place.ahead = sign :: next.ahead →
      select sign.kind = some choice →
      Explains tokens ending (body sign choice) next fun _ behind => Stands tokens behind after) :
    Explains tokens ending (Grammar.production select body) place
      (Offer tokens place after (Refuses select place.ahead)) := by
  refine Meets.production ?_ ?_ fun _ _ ends => .lexical ends
  · intro sign others choice ahead selected
    refine Meets.mono (begins sign ⟨others, place.labels⟩ choice ahead selected) ?_
    intro result behind met
    cases result with
    | ok value => exact met
    | error error => exact met
  · intro refused
    refine ⟨rfl, fun lexeme member => ?_⟩
    obtain ⟨others, ahead⟩ := List.head?_eq_some_iff.mp member
    exact refused lexeme others ahead

theorem firstOf_nil {refused : Prop} (holds : refused) :
    Explains tokens ending (firstOf ([] : List (Parse (Option α)))) place
      (Offer tokens place after refused) :=
  pure ⟨rfl, holds⟩

/-- The next alternative is tried where the first one has refused the tokens. -/
theorem firstOf_cons {first : Parse (Option α)} {others : List (Parse (Option α))}
    {refusedFirst refused : Prop}
    (explains : Explains tokens ending first place (Offer tokens place after refusedFirst))
    (next : refusedFirst →
      Explains tokens ending (firstOf others) place (Offer tokens place after refused)) :
    Explains tokens ending (firstOf (first :: others)) place
      (Offer tokens place after refused) := by
  apply bind explains
  intro result behind offered
  cases result with
  | some value => exact pure offered
  | none =>
      obtain ⟨rfl, holds⟩ := offered
      exact next holds

end Explains

end TapeMachine
