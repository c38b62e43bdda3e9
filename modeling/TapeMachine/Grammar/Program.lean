import TapeMachine.Grammar.Statement

/-!
Contract: the grammar of whole programs.

Owns: label definitions, the items of the top level, and the reading of a program from a buffer.

    program = (identifier ':' block | statement)*

A label is visible inside its own body and behind it.
-/

namespace TapeMachine.Grammar

def labelDefinition (block : Parse (Option Block)) : Parse (Option LabelDefinition) :=
  production (only .identifier) fun name _ => do
    let _ ← expect (.symbol .colon) name .labelColon
    modifyLabels fun labels => labels.define name.text none
    let body ← require block name .labelBlock
    modifyLabels fun labels => labels.define name.text (some body)
    return ⟨name.text, body, name.line⟩

/-- A label definition or a statement, with at most a number of levels. -/
def item (limit : Nat) : Parse (Option Item) := do
  match ← labelDefinition (block (statement limit limit) limit) with
  | some definition => return some (.label definition)
  | none =>
      match ← statement limit limit with
      | some statement => return some (.statement statement)
      | none => return none

/-- All items; whatever is left over behind them is an error. -/
def program (limit : Nat) : Parse Program := do
  let items ← many (item limit) limit
  if ← hasLexeme then
    match ← nextLexeme with
    | some lexeme => fail lexeme .unexpectedToken
    | none => return ⟨items⟩
  else return ⟨items⟩

end Grammar

namespace Parser

def ofBuffer (buffer : Buffer) : Parser :=
  ⟨.ofBuffer buffer, .empty⟩

/-- Levels, repetitions and tokens of a program are fewer than this. -/
def limit (parser : Parser) : Nat :=
  parser.lexer.budget + 2

end Parser

/-- Reads a whole program: the program or the error, and the state in which reading ended. -/
def Buffer.parse (buffer : Buffer) : Except ParseError Program × Parser :=
  let parser := Parser.ofBuffer buffer
  match Grammar.program parser.limit parser with
  | .ok program parser => (.ok program, parser)
  | .error error parser => (.error error, parser)

end TapeMachine
