import TapeMachine.Proofs.Token.Tiling

/-!
Contract: the tokens of a text do not depend on the blanks and comments around them.

Owns: what a token is wherever it stands, texts in which given tokens are laid out with trivia
between them, and the tiling of such a text.

Every token that can be found somewhere can be found in front of a blank or a hash sign: none of
these goes on with a word, a number or a spelling.
-/

namespace TapeMachine

/-- What a token is, wherever it stands. -/
def Lexeme.bare (lexeme : Lexeme) : Kind × String :=
  (lexeme.kind, lexeme.text)

/-- Tokens one after another, each with trivia behind it that only the last one can do without. -/
inductive LaidOut : List (Kind × String) → List Char → Prop where
  | nothing : LaidOut [] []
  | token {kind : Kind} {text : String} {gap rest : List Char} {others : List (Kind × String)}
      (trivia : Trivia gap rest) (separates : others ≠ [] → gap ≠ [])
      (following : LaidOut others rest) :
      LaidOut ((kind, text) :: others) (text.toList ++ (gap ++ rest))

/-! ## Tokens that can be found -/

/-- A text of the kind that, if it is an identifier, is no keyword. -/
structure Kind.Admits (kind : Kind) (text : List Char) : Prop where
  spells : kind.Spells text
  distinct : kind = .identifier → ∀ word : Keyword, text ≠ word.spelling.toList

theorem Tiled.admits {source : String} {before content : List Char} {lexemes : List Lexeme}
    {ending : Option LexError} (tiled : Tiled source before content lexemes ending) :
    ∀ lexeme ∈ lexemes, lexeme.kind.Admits lexeme.text.toList := by
  induction tiled with
  | finished trivia => simp
  | unmatched trivia unmatched => simp
  | token trivia spells complete others inductionHypothesis =>
      refine List.forall_mem_cons.mpr ⟨?_, inductionHypothesis⟩
      rw [String.toList_ofList]
      exact ⟨spells, complete.distinct⟩

theorem Tiled.source_eq {source : String} {before content : List Char} {lexemes : List Lexeme}
    {ending : Option LexError} (tiled : Tiled source before content lexemes ending) :
    ∀ lexeme ∈ lexemes, lexeme.source = source := by
  induction tiled with
  | finished trivia => simp
  | unmatched trivia unmatched => simp
  | token trivia spells complete others inductionHypothesis =>
      exact List.forall_mem_cons.mpr ⟨rfl, inductionHypothesis⟩

/-! ## In front of trivia -/

/-- The end of a text, or the beginning of a blank or a comment. -/
def BeginsApart (rest : List Char) : Prop :=
  ∀ glyph, rest.head? = some glyph → Text.isBlank glyph = true ∨ glyph = '#'

theorem Trivia.beginsApart {gap rest : List Char} (trivia : Trivia gap rest)
    (separates : rest ≠ [] → gap ≠ []) : BeginsApart (gap ++ rest) := by
  intro glyph begins
  cases trivia with
  | nothing =>
      cases rest with
      | nil => simp at begins
      | cons first others => exact absurd rfl (separates (by simp))
  | blank blank others =>
      obtain rfl := Option.some.inj begins
      exact .inl blank
  | comment oneLine ends others => exact .inr (Option.some.inj begins).symm
  | lastComment oneLine => exact .inr (Option.some.inj begins).symm

theorem BeginsApart.isIdentifierPart_eq_false {rest : List Char} (apart : BeginsApart rest)
    {glyph : Char} (begins : rest.head? = some glyph) : isIdentifierPart glyph = false := by
  cases part : isIdentifierPart glyph with
  | false => rfl
  | true =>
      obtain ⟨noBlank, noHash, -⟩ := isolated_of_isIdentifierPart part
      rcases apart glyph begins with blank | hash
      · exact absurd blank (by simp [noBlank])
      · exact absurd hash noHash

/-- No spelling goes on with a blank or a hash sign. -/
theorem BeginsApart.eq_of_spelling {text rest longer : List Char} (apart : BeginsApart rest)
    {kind : Kind} (spelling : kind.spelling? = some longer) (begins : text <+: longer)
    (stands : longer <+: text ++ rest) : longer = text := by
  have unbroken : ∀ entry ∈ Kind.fixed,
      entry.2.all (fun glyph => !Text.isBlank glyph && glyph != '#') = true := by decide
  obtain ⟨more, rfl⟩ := begins
  have follows : more <+: rest := (List.prefix_append_right_inj text).mp stands
  cases more with
  | nil => exact List.append_nil text
  | cons glyph others =>
      obtain ⟨behind, rfl⟩ := follows
      have solid := List.all_eq_true.mp (unbroken _ (Kind.mem_fixed_iff.mpr spelling)) glyph (by simp)
      rcases apart glyph rfl with blank | rfl
      · simp [blank] at solid
      · simp at solid

/-- In front of trivia and at the end of a text every token is complete. -/
theorem Kind.Admits.complete {kind : Kind} {text rest : List Char} (admits : kind.Admits text)
    (apart : BeginsApart rest) : kind.Complete text rest where
  word _ _ begins := apart.isIdentifierPart_eq_false begins
  digits _ glyph begins := Bool.eq_false_iff.mpr fun digit => by
    have part := isIdentifierPart_of_isDigit digit
    rw [apart.isIdentifierPart_eq_false begins] at part
    contradiction
  longest _ _ _ spelling begins stands := apart.eq_of_spelling spelling begins stands
  distinct := admits.distinct

/-! ## Tilings of what is laid out -/

theorem LaidOut.eq_nil {content : List Char} (laidOut : LaidOut [] content) : content = [] := by
  cases laidOut
  rfl

/-- Tokens that are laid out tile the text. -/
theorem LaidOut.tiled {source : String} {tokens : List (Kind × String)} {content : List Char}
    (laidOut : LaidOut tokens content)
    (admitted : ∀ token ∈ tokens, token.1.Admits token.2.toList) {margin : List Char}
    (trivia : Trivia margin content) (before : List Char) :
    ∃ lexemes, Tiled source before (margin ++ content) lexemes none ∧
      lexemes.map Lexeme.bare = tokens := by
  induction laidOut generalizing margin before with
  | nothing =>
      rw [List.append_nil]
      exact ⟨[], .finished trivia, rfl⟩
  | @token kind text gap rest others triviaBehind separates following inductionHypothesis =>
      obtain ⟨admits, admittedOthers⟩ := List.forall_mem_cons.mp admitted
      obtain ⟨lexemes, tiled, same⟩ :=
        inductionHypothesis admittedOthers triviaBehind (before ++ margin ++ text.toList)
      have apart : BeginsApart (gap ++ rest) := by
        refine triviaBehind.beginsApart fun more => separates ?_
        rintro rfl
        exact more following.eq_nil
      refine ⟨_, .token trivia admits.spells (admits.complete apart) tiled, ?_⟩
      rw [List.map_cons, same, Lexeme.bare, String.ofList_toList]

end TapeMachine
