import TapeMachine.Proofs.Grammar.Completeness
import TapeMachine.Proofs.Grammar.Soundness

/-!
Contract: the texts that are programs.

Owns: acceptance of a text as a program, which mentions tokens, derivations and checks but no
parser, and the agreement of parsing with it.
-/

namespace TapeMachine

/-- The tokens of a text up to its end or to the first error, and this error. -/
def tokensOf (text : List Char) : List Lexeme × Option LexError :=
  let tokenized := (Lexer.ofBuffer (.ofText text)).tokenize
  (tokenized.1, tokenized.2.1)

/-- A text is a program: all of it is tokens, the tokens derive the program, every part has the
type that its place needs, every jump leads to a label that is defined further up or around it, and
no integer is too large. -/
structure Accepted (text : List Char) (program : Program) : Prop where
  lexes : (tokensOf text).2 = none
  phrase : ProgramPhrase (tokensOf text).1 program
  typed : program.WellTyped
  resolved : program.Resolved
  range : AllInRange (tokensOf text).1

/-! ## Where parsing begins -/

/-- Parsing begins in front of all tokens, with no label visible. -/
theorem Parser.at_ofBuffer {buffer : Buffer} (sound : buffer.Sound) :
    (ofBuffer buffer).At ⟨buffer.passage.lex.1, .empty⟩ [] buffer.passage.lex.2 where
  steady := Lexer.steady_ofBuffer sound
  outlook := Lexer.outlook_ofBuffer buffer
  labels := rfl

theorem length_lex_lt_limit (buffer : Buffer) :
    buffer.passage.lex.1.length < (Parser.ofBuffer buffer).limit := by
  have bound := (Lexer.ofBuffer buffer).length_ahead_le_budget
  rw [Lexer.outlook_ofBuffer] at bound
  exact Nat.lt_of_le_of_lt bound (Nat.lt_add_of_pos_right (by decide))

theorem parse_eq (buffer : Buffer) :
    buffer.parse.1 =
      resultOf (Grammar.program (Parser.ofBuffer buffer).limit (Parser.ofBuffer buffer)) := by
  unfold Buffer.parse
  dsimp only
  cases Grammar.program (Parser.ofBuffer buffer).limit (Parser.ofBuffer buffer) <;> rfl

/-! ## Texts and their tokens -/

theorem tokensOf_eq (text : List Char) : tokensOf text = (Buffer.ofText text).passage.lex := by
  have sound : (Buffer.ofText text).Sound := (Buffer.plain_start textSourceName text none).sound
  obtain ⟨ahead, ending⟩ := Lexer.tokenize_spec (Lexer.steady_ofBuffer sound)
  rw [tokensOf, ahead, ending, Lexer.outlook_ofBuffer]

theorem parser_at_start (text : List Char) :
    (Parser.ofBuffer (.ofText text)).At ⟨(tokensOf text).1, .empty⟩ [] (tokensOf text).2 := by
  rw [tokensOf_eq]
  exact Parser.at_ofBuffer (Buffer.plain_start textSourceName text none).sound

theorem length_tokensOf_le (text : List Char) :
    (tokensOf text).1.length ≤ (Parser.ofBuffer (.ofText text)).limit := by
  rw [tokensOf_eq]
  exact Nat.le_of_lt (length_lex_lt_limit (.ofText text))

theorem spelled_of_mem_tokensOf {text : List Char} {lexeme : Lexeme}
    (member : lexeme ∈ (tokensOf text).1) : lexeme.Spelled := by
  rw [tokensOf_eq] at member
  obtain ⟨content, front⟩ := Passage.front_of_mem_lex member
  intro kind
  rw [kind] at front
  obtain ⟨⟨glyph, rest, first, others, text⟩, -⟩ := runFront_eq_some front
  rw [text]
  exact ⟨by simp, by simp [first, others]⟩

/-- The tree that parsing yields passes every check. -/
theorem accepted_of_parse {text : List Char} {program : Program}
    (parsed : (Buffer.ofText text).parse.1 = .ok program) : Accepted text program := by
  obtain ⟨behind, -, ensured⟩ := Grammar.ensures_program
    (Parser.ofBuffer (.ofText text)).limit _ _ _ (parser_at_start text)
  rw [← parse_eq, parsed] at ensured
  rcases ensured with ⟨lexes, -, admitted⟩
  exact ⟨lexes, admitted.phrases, admitted.typed,
    Program.resolved_iff.mpr (by simpa using admitted.resolved), admitted.range⟩

/-- In front of the tokens of a program, parsing yields this program or refuses it for a check. -/
theorem parse_of_phrase {text : List Char} {program : Program} (lexes : (tokensOf text).2 = none)
    (phrase : ProgramPhrase (tokensOf text).1 program) :
    (Buffer.ofText text).parse.1 = .ok program ∨
      ((∃ error, (Buffer.ofText text).parse.1 = .error error) ∧ ¬ Accepted text program) := by
  have start := parser_at_start text
  rw [lexes] at start
  obtain ⟨behind, -, followed⟩ := Grammar.follows_program phrase
    (fun _ => spelled_of_mem_tokensOf) _ (length_tokensOf_le text) _ _ start
  rw [← parse_eq] at followed
  cases parsed : (Buffer.ofText text).parse.1 with
  | error error =>
      rw [parsed] at followed
      refine .inr ⟨⟨error, rfl⟩, fun accepted => followed ⟨accepted.typed, accepted.range, ?_⟩⟩
      simpa using Program.resolved_iff.mp accepted.resolved
  | ok found =>
      rw [parsed] at followed
      exact .inl (congrArg Except.ok followed.1)

/-- Parsing accepts exactly the texts that are programs. The tree is the one of the only
derivation, well typed or not, and all of its expressions have the types that their shapes give. -/
theorem parse_accepts_exactly (text : List Char) :
    (∀ program, (Buffer.ofText text).parse.1 = .ok program ↔ Accepted text program) ∧
      ∀ program, (Buffer.ofText text).parse.1 = .ok program →
        (∀ other, ProgramPhrase (tokensOf text).1 other → other = program) ∧
          ∀ part ∈ program.expressions, HasType part part.type := by
  constructor
  · intro program
    constructor
    · exact accepted_of_parse
    · intro accepted
      rcases parse_of_phrase accepted.lexes accepted.phrase with parsed | ⟨-, refused⟩
      · exact parsed
      · exact absurd accepted refused
  · intro program parsed
    have accepted := accepted_of_parse parsed
    refine ⟨?_, accepted.typed.hasType⟩
    intro other phrase
    rcases parse_of_phrase accepted.lexes phrase with same | ⟨⟨error, refused⟩, -⟩
    · rw [parsed] at same
      exact (Except.ok.inj same).symm
    · rw [parsed] at refused
      contradiction

end TapeMachine
