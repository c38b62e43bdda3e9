import TapeMachine.Names.Environment
import TapeMachine.Syntax.Error

/-!
Contract: what the productions of the grammar are made of.

Owns: the state of parsing, the reading of one production, the choice between productions, their
repetition, and the required parts of a production that has begun.

A production looks at one token. If that token does not begin it, it yields nothing and the token
is returned again; otherwise the production is committed, and whatever is missing from then on is
an error. Tokens are marked while a production runs, whichever way it ends.
-/

namespace TapeMachine

/-- Where the tokens come from, and the labels that are visible at the current place. A label is
bound to nothing while its body is being read. -/
structure Parser where
  lexer : Lexer
  labels : Environment (Option Block)

/-- A step of parsing. An error keeps the state in which it came up. -/
abbrev Parse (α : Type) := EStateM ParseError Parser α

namespace Grammar

variable {α β : Type}

def nextLexeme : Parse (Option Lexeme) := fun ⟨lexer, labels⟩ =>
  match lexer.next with
  | (.ok lexeme, lexer) => .ok lexeme ⟨lexer, labels⟩
  | (.error error, lexer) => .error (.ofLexError error) ⟨lexer, labels⟩

def hasLexeme : Parse Bool := fun ⟨lexer, labels⟩ =>
  match lexer.hasNext with
  | (.ok follows, lexer) => .ok follows ⟨lexer, labels⟩
  | (.error error, lexer) => .error (.ofLexError error) ⟨lexer, labels⟩

def fail (lexeme : Lexeme) (cause : ParseCause) : Parse α :=
  throw (ParseError.atLexeme lexeme cause)

/-- Runs a step between an open and a closed mark, and goes back to the mark if it yields
nothing. -/
def attempt (step : Parse (Option α)) : Parse (Option α) := fun ⟨lexer, labels⟩ =>
  match step ⟨lexer.openMark, labels⟩ with
  | .ok none ⟨lexer, labels⟩ => .ok none ⟨lexer.rewindMark.closeMark, labels⟩
  | .ok (some result) ⟨lexer, labels⟩ => .ok (some result) ⟨lexer.closeMark, labels⟩
  | .error error ⟨lexer, labels⟩ => .error error ⟨lexer.closeMark, labels⟩

/-- A production that begins with a token of a selected kind and is committed from then on. -/
def production (select : Kind → Option β) (body : Lexeme → β → Parse α) : Parse (Option α) :=
  attempt do
    match ← nextLexeme with
    | none => return none
    | some lexeme =>
        match select lexeme.kind with
        | none => return none
        | some choice => return some (← body lexeme choice)

def only (kind : Kind) : Kind → Option Unit := fun found =>
  if found = kind then some () else none

def firstOf : List (Parse (Option α)) → Parse (Option α)
  | [] => return none
  | alternative :: others => do
      match ← alternative with
      | some result => return some result
      | none => firstOf others

/-- What a step yields when it is run until it yields nothing, or a number of times. -/
def many (step : Parse (Option α)) : Nat → Parse (List α)
  | 0 => return []
  | limit + 1 => do
      match ← step with
      | none => return []
      | some result => return result :: (← many step limit)

/-- Reports a missing part at the next token, or at an earlier one if the input has run out. -/
def failMissing (earlier : Lexeme) (part : Missing) : Parse α := do
  fail ((← nextLexeme).getD earlier) (.missing part)

def expect (kind : Kind) (earlier : Lexeme) (part : Missing) : Parse Lexeme := do
  match ← nextLexeme with
  | some lexeme => if lexeme.kind = kind then return lexeme else fail lexeme (.missing part)
  | none => fail earlier (.missing part)

/-- The result of a step that a committed production needs. -/
def require (step : Parse (Option α)) (earlier : Lexeme) (part : Missing) : Parse α := do
  match ← step with
  | some result => return result
  | none => failMissing earlier part

/-- Reports a type mismatch at a token unless two types agree. -/
def checkType (found wanted : ValueType) (lexeme : Lexeme) (mismatch : TypeMismatch) :
    Parse Unit :=
  if found = wanted then pure () else fail lexeme (.typeMismatch mismatch)

def modifyLabels (change : Environment (Option Block) → Environment (Option Block)) :
    Parse Unit :=
  modify fun parser => { parser with labels := change parser.labels }

end Grammar

end TapeMachine
