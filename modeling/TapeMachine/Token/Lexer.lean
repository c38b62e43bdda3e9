import TapeMachine.Token.Scan

/-!
Contract: tokens out of a buffer, with marks to go back to.

Owns: the token with its text and place, the error for text that is no token, and the lexer, which
keeps the tokens that a reader may still go back over.

`openMark` marks the place, `rewindMark` goes back to the innermost mark, so that the same tokens
are returned again, and `closeMark` drops the innermost mark without moving. Tokens are kept as
long as a mark is open.
-/

namespace TapeMachine

/-- One token, with the line that it begins on and the name of its source. -/
structure Lexeme where
  kind : Kind
  text : String
  line : Nat
  source : String
deriving DecidableEq, Repr

def Lexeme.show (lexeme : Lexeme) : String :=
  s!"{lexeme.source} line {lexeme.line} token {lexeme.kind.code} text {lexeme.text}"

structure LexError where
  line : Nat
  text : String
  source : String
deriving DecidableEq, Repr

namespace LexError

def reason : String := "Does not match any valid token"

def message (error : LexError) : String :=
  s!"Lexer error in {error.source} at line {error.line} near '{error.text}': {reason}"

end LexError

/-- The error about the place that the buffer has reached. -/
def Buffer.refusal (buffer : Buffer) : LexError × Buffer :=
  let (glyph, ahead) := buffer.peek 0
  (⟨buffer.line, (glyph.map Char.toString).getD "", buffer.name⟩, ahead)

structure Lexer where
  buffer : Buffer
  /-- Tokens that may be returned again, from the place of the outermost mark on. -/
  recorded : Array Lexeme
  /-- How many of the recorded tokens lie behind the reader. -/
  cursor : Nat
  /-- The values of `cursor` to go back to, innermost first. -/
  marks : List Nat
deriving DecidableEq, Repr

namespace Lexer

def ofBuffer (buffer : Buffer) : Lexer where
  buffer := buffer
  recorded := #[]
  cursor := 0
  marks := []

def line (lexer : Lexer) : Nat :=
  lexer.buffer.line

def source (lexer : Lexer) : String :=
  lexer.buffer.name

def depth (lexer : Lexer) : Nat :=
  lexer.marks.length

/-- Whether another token follows. The end of the input is no error. -/
def hasNext (lexer : Lexer) : Except LexError Bool × Lexer :=
  if lexer.cursor < lexer.recorded.size then (.ok true, lexer)
  else
    match lexer.buffer.skipTrivia.isEmpty with
    | (true, buffer) => (.ok false, { lexer with buffer := buffer })
    | (false, buffer) =>
        match buffer.classify with
        | (some _, buffer) => (.ok true, { lexer with buffer := buffer })
        | (none, buffer) =>
            let (error, buffer) := buffer.refusal
            (.error error, { lexer with buffer := buffer })

/-- Keeps a token that has just been read, as long as a mark is open. -/
def record (lexer : Lexer) (lexeme : Lexeme) : Lexer :=
  if lexer.marks.isEmpty then { lexer with recorded := #[], cursor := 0 }
  else { lexer with recorded := lexer.recorded.push lexeme, cursor := lexer.cursor + 1 }

/-- The next token: a recorded one after going back, a new one otherwise. -/
def next (lexer : Lexer) : Except LexError (Option Lexeme) × Lexer :=
  match lexer.recorded[lexer.cursor]? with
  | some lexeme => (.ok (some lexeme), { lexer with cursor := lexer.cursor + 1 })
  | none =>
      match lexer.hasNext with
      | (.error error, lexer) => (.error error, lexer)
      | (.ok false, lexer) => (.ok none, lexer)
      | (.ok true, lexer) =>
          match lexer.buffer.classify with
          | (none, buffer) =>
              let (error, buffer) := buffer.refusal
              (.error error, { lexer with buffer := buffer })
          | (some kind, buffer) =>
              match buffer.extract kind with
              | (none, rest) =>
                  let (error, rest) := rest.refusal
                  (.error error, { lexer with buffer := rest })
              | (some text, rest) =>
                  let lexeme : Lexeme := ⟨kind, String.ofList text, buffer.line, buffer.name⟩
                  (.ok (some lexeme), record { lexer with buffer := rest } lexeme)

def openMark (lexer : Lexer) : Lexer :=
  { lexer with marks := lexer.cursor :: lexer.marks }

def rewindMark (lexer : Lexer) : Lexer :=
  match lexer.marks with
  | [] => lexer
  | mark :: _ => { lexer with cursor := mark }

/-- Drops the innermost mark, if there is one. Without an open mark, recorded tokens that have
been read are forgotten. -/
def closeMark (lexer : Lexer) : Lexer :=
  match lexer.marks.tail with
  | [] =>
      { lexer with
        marks := []
        recorded := if 0 < lexer.cursor then lexer.recorded.drop lexer.cursor else lexer.recorded
        cursor := 0 }
  | marks => { lexer with marks := marks }

/-- Bounds the tokens that can still be returned. -/
def budget (lexer : Lexer) : Nat :=
  (lexer.recorded.size - lexer.cursor) + lexer.buffer.stock

/-- The next tokens, up to a number of them, the end of the input or the first error. -/
def tokens : Nat → Lexer → List Lexeme × Option LexError × Lexer
  | 0, lexer => ([], none, lexer)
  | limit + 1, lexer =>
      match lexer.next with
      | (.error error, lexer) => ([], some error, lexer)
      | (.ok none, lexer) => ([], none, lexer)
      | (.ok (some lexeme), lexer) =>
          let (others, error, lexer) := tokens limit lexer
          (lexeme :: others, error, lexer)

/-- All remaining tokens up to the end of the input or the first error. -/
def tokenize (lexer : Lexer) : List Lexeme × Option LexError × Lexer :=
  tokens (lexer.budget + 1) lexer

end Lexer

end TapeMachine
