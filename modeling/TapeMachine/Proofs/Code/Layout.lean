import TapeMachine.Proofs.Grammar.Language
import TapeMachine.Proofs.Grammar.Relocation
import TapeMachine.Proofs.Token.Layout

/-!
Contract: blanks, comments and line breaks make no difference to a program.

Owns: the tokens that a lexer can emit, which are found again wherever they are laid out with trivia
between them, and outcomes that differ in line numbers only, such as those of texts with the same
tokens.

Two texts are compared by way of their tokens alone: a parser can have read ahead all of them, and
then nothing is left of the text but their kinds and texts, on one and the same line.
-/

namespace TapeMachine

/-! ## Texts with given tokens -/

/-- Some text has a token of this kind with this text. -/
def Kind.Emits (kind : Kind) (text : String) : Prop :=
  ∃ source : List Char, ∃ lexeme ∈ (tokensOf source).1, lexeme.bare = (kind, text)

theorem tiled_tokensOf (text : List Char) :
    Tiled textSourceName [] text (tokensOf text).1 (tokensOf text).2 := by
  rw [tokensOf_eq, Buffer.passage_ofText]
  exact tiled_lex textSourceName [] text

theorem Kind.Emits.admits {kind : Kind} {text : String} (emits : kind.Emits text) :
    kind.Admits text.toList := by
  obtain ⟨source, lexeme, member, bare⟩ := emits
  obtain ⟨rfl, rfl⟩ := Prod.mk.inj bare
  exact (tiled_tokensOf source).admits lexeme member

theorem tokensOf_laidOut {tokens : List (Kind × String)} {margin content : List Char}
    (emitted : ∀ token ∈ tokens, token.1.Emits token.2) (trivia : Trivia margin content)
    (laidOut : LaidOut tokens content) :
    (tokensOf (margin ++ content)).1.map Lexeme.bare = tokens ∧
      (tokensOf (margin ++ content)).2 = none := by
  obtain ⟨lexemes, tiled, same⟩ :=
    laidOut.tiled (fun token member => (emitted token member).admits) trivia []
  rw [tokensOf_eq, Buffer.passage_ofText, lex_of_tiled tiled]
  exact ⟨same, rfl⟩

/-! ## Parsing without layout -/

/-- A parser that has read ahead all tokens that there are. -/
def Parser.ofLexemes (lexemes : List Lexeme) : Parser where
  lexer :=
    { buffer := .ofText []
      recorded := lexemes.toArray
      cursor := 0
      marks := [] }
  labels := .empty

theorem Parser.at_ofLexemes (lexemes : List Lexeme) :
    (ofLexemes lexemes).At ⟨lexemes, .empty⟩ [] none where
  steady :=
    { sound := (Buffer.plain_start textSourceName [] none).sound
      cursor := Nat.zero_le _
      marks := by simp [ofLexemes] }
  outlook := by
    have nothing : (Buffer.ofText []).passage.lex = ([], none) := by
      rw [Buffer.passage_ofText]
      exact lex_of_tiled (show Tiled textSourceName [] [] [] none from .finished .nothing)
    simp [Lexer.outlook, Lexer.tokensFrom, ofLexemes, nothing]
  labels := rfl

def onOneLine (tokens : List (Kind × String)) : List Lexeme :=
  tokens.map fun token => ⟨token.1, token.2, 0, textSourceName⟩

/-- What tokens come to that stand on one line. -/
def parseTokens (tokens : List (Kind × String)) : Except ParseError Program :=
  resultOf (Grammar.program (tokens.length + 1) (.ofLexemes (onOneLine tokens)))

theorem relocate_tokensOf (text : List Char) :
    (tokensOf text).1.map (Lexeme.relocate .oneLine) =
      onOneLine ((tokensOf text).1.map Lexeme.bare) := by
  rw [onOneLine, List.map_map]
  refine List.map_congr_left fun lexeme member => ?_
  rw [Function.comp_apply, ← (tiled_tokensOf text).source_eq lexeme member]
  rfl

/-- Lines apart, parsing a text is parsing the kinds and texts of its tokens. -/
theorem parse_oneLine {text : List Char} (lexes : (tokensOf text).2 = none) :
    Relocatable.relocate .oneLine (Buffer.ofText text).parse.1 =
      parseTokens ((tokensOf text).1.map Lexeme.bare) := by
  have stands := parser_at_start text
  have enough := length_lex_lt_limit (.ofText text)
  rw [lexes] at stands
  rw [← tokensOf_eq] at enough
  rw [parse_eq, parseTokens, ← relocate_tokensOf, List.length_map]
  exact (Grammar.program_relocate stands (Parser.at_ofLexemes _) enough (Nat.lt_succ_self _)).symm

/-! ## Outcomes -/

/-- Two outcomes are results that are alike, or the same error on lines of its own. -/
inductive SameOutcome {α : Type} (alike : α → α → Prop) :
    Except ParseError α → Except ParseError α → Prop where
  | accepted {first second : α} (same : alike first second) :
      SameOutcome alike (.ok first) (.ok second)
  | refused {first second : ParseError} (cause : first.cause = second.cause)
      (text : first.text = second.text) (source : first.source = second.source) :
      SameOutcome alike (.error first) (.error second)

/-- The trees of two programs differ in line numbers only. -/
def Program.SameTree (first second : Program) : Prop :=
  first.relocate .oneLine = second.relocate .oneLine

/-- Two executables have the same main sequence, and under each name the same body. -/
structure Executable.SameCode (first second : Executable) : Prop where
  main : first.main.instructions = second.main.instructions
  labels : ∀ name, (first.labels.get? name).map Sequence.instructions =
    (second.labels.get? name).map Sequence.instructions

theorem Program.SameTree.sameCode {first second : Program} (same : first.SameTree second) :
    first.executable.SameCode second.executable where
  main := by
    rw [← first.main_relocate .oneLine, same, second.main_relocate .oneLine]
  labels name := by
    rw [← first.labels_relocate .oneLine, same, second.labels_relocate .oneLine]

theorem sameOutcome_of_relocate_eq {first second : Except ParseError Program}
    (same : Relocatable.relocate .oneLine first = Relocatable.relocate .oneLine second) :
    SameOutcome Program.SameTree first second := by
  cases first with
  | ok program =>
      cases second with
      | ok other => exact .accepted (Except.ok.inj same)
      | error error => cases same
  | error error =>
      cases second with
      | ok other => cases same
      | error other =>
          have fields := ParseError.mk.inj (Except.error.inj same)
          exact .refused fields.1 fields.2.2.1 fields.2.2.2

theorem SameOutcome.map {α β : Type} {alike : α → α → Prop} {alikeNext : β → β → Prop}
    {change : α → β} (keeps : ∀ first second, alike first second →
      alikeNext (change first) (change second)) {first second : Except ParseError α}
    (same : SameOutcome alike first second) :
    SameOutcome alikeNext (first.map change) (second.map change) := by
  cases same with
  | accepted same => exact .accepted (keeps _ _ same)
  | refused cause text source => exact .refused cause text source

/-- Layout does not matter. Tokens that a lexer can emit, with blanks or comments between any two of
them, are exactly the tokens of the text. And texts with the same kinds and texts of tokens, without
an error among them, come to the same tree and the same instructions or to the same error: line
numbers apart, neither parsing nor lowering sees a difference. -/
theorem layout_does_not_matter :
    (∀ tokens margin content, (∀ token ∈ tokens, token.1.Emits token.2) →
        Trivia margin content → LaidOut tokens content →
          (tokensOf (margin ++ content)).1.map Lexeme.bare = tokens ∧
            (tokensOf (margin ++ content)).2 = none) ∧
      ∀ first second, (tokensOf first).2 = none → (tokensOf second).2 = none →
        (tokensOf first).1.map Lexeme.bare = (tokensOf second).1.map Lexeme.bare →
          SameOutcome Program.SameTree (Buffer.ofText first).parse.1
              (Buffer.ofText second).parse.1 ∧
            SameOutcome Executable.SameCode (Buffer.ofText first).compile
              (Buffer.ofText second).compile := by
  refine ⟨fun _ _ _ => tokensOf_laidOut, ?_⟩
  intro first second lexes lexesSecond same
  have trees : Relocatable.relocate .oneLine (Buffer.ofText first).parse.1 =
      Relocatable.relocate .oneLine (Buffer.ofText second).parse.1 := by
    rw [parse_oneLine lexes, parse_oneLine lexesSecond, same]
  have parsed := sameOutcome_of_relocate_eq trees
  refine ⟨parsed, ?_⟩
  rw [Buffer.compile_eq, Buffer.compile_eq]
  exact parsed.map fun _ _ tree => tree.sameCode

/-- Writes a hash sign and moves on by two cells. -/
def markText : List Char :=
  "write'#';>>2;".toList

def markTokens : List (Kind × String) :=
  [(.keyword .writeWord, "write"), (.literal, "'#'"), (.symbol .semicolon, ";"),
    (.keyword .shiftRight, ">>"), (.integer, "2"), (.symbol .semicolon, ";")]

/-- A comment behind a word, a comment that a form feed ends, and one that nothing ends. -/
def markSpread : List Char :=
  "write".toList ++ (['#', 'x', '\n'] ++ ("'#'".toList ++ ([' '] ++ (";".toList ++ (['\t'] ++
    (">>".toList ++ (['#', '\x0c'] ++ ("2".toList ++ ([' '] ++ (";".toList ++ (['#'] ++
      [])))))))))))

theorem layout_does_not_matter_markText :
    (tokensOf ('\n' :: markSpread)).1.map Lexeme.bare = markTokens ∧
      SameOutcome Executable.SameCode (Buffer.ofText ('\n' :: markSpread)).compile
        (Buffer.ofText markText).compile := by
  obtain ⟨finds, alike⟩ := layout_does_not_matter
  have emitted : ∀ token ∈ markTokens, ∃ lexeme ∈ (tokensOf markText).1, lexeme.bare = token := by
    decide +kernel
  have comment : ∀ rest, Trivia ['#', 'x', '\n'] rest := fun _ =>
    show Trivia ('#' :: (['x'] ++ '\n' :: [])) _ from
      .comment (by simp [breaksLine]) rfl .nothing
  have formFeed : ∀ rest, Trivia ['#', '\x0c'] rest := fun _ =>
    show Trivia ('#' :: ([] ++ '\x0c' :: [])) _ from .comment (by simp) rfl .nothing
  have blank : ∀ glyph rest, Text.isBlank glyph = true → Trivia [glyph] rest :=
    fun _ _ blank => .blank blank .nothing
  have laidOut : LaidOut markTokens markSpread :=
    .token (comment _) (by simp) (.token (blank _ _ (by decide)) (by simp)
      (.token (blank _ _ (by decide)) (by simp) (.token (formFeed _) (by simp)
        (.token (blank _ _ (by decide)) (by simp) (.token (.lastComment (by simp)) (by simp)
          .nothing)))))
  obtain ⟨found, ends⟩ := finds markTokens ['\n'] markSpread
    (fun token member => ⟨markText, emitted token member⟩) (blank _ _ (by decide)) laidOut
  have compact : (tokensOf markText).2 = none ∧
      (tokensOf markText).1.map Lexeme.bare = markTokens := by
    decide +kernel
  exact ⟨found, (alike _ markText ends compact.1 (found.trans compact.2.symm)).2⟩

end TapeMachine
