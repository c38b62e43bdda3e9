import TapeMachine.Proofs.Grammar.Language
import TapeMachine.Proofs.Grammar.Relocation
import TapeMachine.Proofs.Token.Renaming

/-!
Contract: it makes no difference how the text of a program arrives.

Owns: the agreement of parsing and lowering on buffers that are alike, and of everything that can
be asked of the buffer of a stream with the buffer of its text.
-/

namespace TapeMachine

def ParseError.inSource (name : String) (error : ParseError) : ParseError :=
  { error with source := name }

/-- A tree carries no name of a source. -/
theorem relocate_inSource (name : String) (result : Except ParseError Program) :
    Relocatable.relocate (.inSource name) result = result.mapError (ParseError.inSource name) := by
  cases result with
  | error error => rfl
  | ok program => exact congrArg Except.ok (program.relocate_of_keepsLines fun _ => rfl)

namespace Buffer

namespace Alike

variable {first second : Buffer}

/-- Buffers that are alike have the same program, or the same error under the name of each. -/
theorem parse (alike : Alike first second) (soundFirst : first.Sound)
    (soundSecond : second.Sound) :
    first.parse.1 = second.parse.1.mapError (ParseError.inSource first.name) := by
  have renamed : first.passage.lex = (second.passage.lex.1.map (Lexeme.inSource first.name),
      second.passage.lex.2.map (LexError.inSource first.name)) := by
    rw [alike.passage, Passage.lex_inSource]
  -- The limits differ, since they bound what has not been drawn; both exceed the tokens.
  have enough : second.passage.lex.1.length < (Parser.ofBuffer first).limit := by
    simpa [renamed] using length_lex_lt_limit first
  have startFirst := Parser.at_ofBuffer soundFirst
  rw [renamed] at startFirst
  have moved := @Grammar.program_relocate (.inSource first.name) _ _ _ _ _ _
    (Parser.at_ofBuffer soundSecond) startFirst (length_lex_lt_limit second) enough
  rw [parse_eq, parse_eq, moved, relocate_inSource]

theorem compile (alike : Alike first second) (soundFirst : first.Sound)
    (soundSecond : second.Sound) :
    first.compile = second.compile.mapError (ParseError.inSource first.name) := by
  rw [compile_eq, compile_eq, alike.parse soundFirst soundSecond]
  cases second.parse.1 <;> rfl

end Alike

end Buffer

/-- A stream that delivers the bytes of a text cannot be told from this text, except by its name:
whatever the sizes of reads, the interruptions between them and the threshold, requests are answered
alike with the same line state behind each, and tokens, errors, trees and instructions agree. -/
theorem streaming_transparent (text : List Char) (name : String) {feed : Feed}
    (chunk threshold : Nat) (delivers : feed.payload = text.flatMap String.utf8EncodeChar) :
    let streamed := Buffer.ofStream name (.ofFeed feed chunk threshold)
    let whole := Buffer.ofText text
    (∀ requests, (∀ request ∈ requests, request.isSettled) →
        streamed.responses requests = whole.responses requests) ∧
      (∀ requests, (Lexer.ofBuffer streamed).answers requests =
        ((Lexer.ofBuffer whole).answers requests).map (LexerAnswer.inSource name)) ∧
      streamed.parse.1 = whole.parse.1.mapError (ParseError.inSource name) ∧
      streamed.compile = whole.compile.mapError (ParseError.inSource name) := by
  have alike := Buffer.alike_ofStream name delivers chunk threshold
  have soundStreamed := (Buffer.Fresh.ofStream name feed chunk threshold).plain.sound
  have soundWhole := (Buffer.Fresh.ofText text).plain.sound
  exact ⟨fun _ => alike.responses soundStreamed soundWhole,
    alike.answers soundStreamed soundWhole, alike.parse soundStreamed soundWhole,
    alike.compile soundStreamed soundWhole⟩

/-- A character of two bytes arrives in two reads with an interruption between them, while nothing
is refilled ahead of time. -/
theorem streaming_transparent_split_character :
    let streamed := Buffer.ofStream "tape.tm"
      (.ofFeed [.bytes [0x6c, 0xc3], .interrupted, .bytes [0xa9, 0x3a]] 1 0)
    let requests := [.read, .peek 1, .push ['\n'] true false, .read, .rewind, .remaining]
    streamed.responses requests =
        [(.glyph (some 'l'), 1, false), (.glyph (some ':'), 1, false), (.done, 1, false),
          (.glyph (some '\n'), 2, true), (.done, 1, true), (.text ['l', 'é', ':'], 1, true)] ∧
      streamed.parse.1 = (Buffer.ofText ['l', 'é', ':']).parse.1.mapError
        (ParseError.inSource "tape.tm") := by
  have delivers : Feed.payload [.bytes [0x6c, 0xc3], .interrupted, .bytes [0xa9, 0x3a]] =
      ['l', 'é', ':'].flatMap String.utf8EncodeChar := by decide
  obtain ⟨responses, -, parsed, -⟩ := streaming_transparent _ "tape.tm" 1 0 delivers
  exact ⟨(responses _ (by decide)).trans (by decide), parsed⟩

end TapeMachine
