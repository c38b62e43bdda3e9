import TapeMachine.Proofs.Token.LongestMatch
import TapeMachine.Proofs.Token.Outlook

/-!
Contract: the tokens of a text as a tiling of it.

Owns: blanks and comments, the tilings of a text by complete tokens with the line of each, the loop
that takes token after token, and its agreement with the tilings.

A tiling says nothing about how tokens are found, what is tried first, or what is read too far and
put back.
-/

namespace TapeMachine

/-! ## Between the tokens -/

/-- Blanks and comments in front of the rest of a text. A comment ends with a line break or with the
text. -/
inductive Trivia : List Char → List Char → Prop where
  | nothing {rest : List Char} : Trivia [] rest
  | blank {glyph : Char} {gap rest : List Char} (blank : Text.isBlank glyph = true)
      (others : Trivia gap rest) : Trivia (glyph :: gap) rest
  | comment {body gap rest : List Char} {lineBreak : Char}
      (oneLine : ∀ glyph ∈ body, breaksLine glyph = false) (ends : breaksLine lineBreak = true)
      (others : Trivia gap rest) : Trivia ('#' :: (body ++ lineBreak :: gap)) rest
  | lastComment {body : List Char} (oneLine : ∀ glyph ∈ body, breaksLine glyph = false) :
      Trivia ('#' :: body) []

theorem Trivia.blanks {blanks gap rest : List Char}
    (all : ∀ glyph ∈ blanks, Text.isBlank glyph = true) (others : Trivia gap rest) :
    Trivia (blanks ++ gap) rest := by
  induction blanks with
  | nil => exact others
  | cons glyph blanks inductionHypothesis =>
      exact .blank (all glyph (by simp))
        (inductionHypothesis fun other member => all other (by simp [member]))

/-- A comment in front is one line with its line break, or all of the text. -/
theorem commentFront_cases {content text : List Char} (found : commentFront content = some text) :
    ∃ body, (∀ glyph ∈ body, breaksLine glyph = false) ∧
      ((∃ lineBreak, breaksLine lineBreak = true ∧ text = '#' :: (body ++ [lineBreak])) ∨
        (text = '#' :: body ∧ content = text)) := by
  unfold commentFront at found
  split at found
  · rename_i rest
    obtain rfl := Option.some.inj found
    refine ⟨rest.takeWhile staysOnLine, ?_, ?_⟩
    · intro glyph member
      simpa [staysOnLine] using List.all_eq_true.mp List.all_takeWhile glyph member
    · cases behind : rest.dropWhile staysOnLine with
      | nil =>
          have whole := List.takeWhile_append_dropWhile (p := staysOnLine) (l := rest)
          rw [behind, List.append_nil] at whole
          exact .inr ⟨by simp, by simp [whole]⟩
      | cons lineBreak others =>
          have stops := List.head?_dropWhile_not staysOnLine rest
          rw [behind] at stops
          exact .inl ⟨lineBreak, by simpa [staysOnLine] using stops, by simp⟩
  · simp at found

/-- What is skipped in front of a text is trivia. -/
theorem trivia_of_triviaLength (content : List Char) :
    ∃ gap rest, content = gap ++ rest ∧ gap.length = triviaLength content ∧ Trivia gap rest := by
  have blank : ∀ content : List Char, ∀ glyph ∈ content.takeWhile Text.isBlank,
      Text.isBlank glyph = true :=
    fun content => List.all_eq_true.mp List.all_takeWhile
  induction content using triviaLength.induct with
  | case1 content blanks comment =>
      simp only [blanks, drop_length_takeWhile] at comment
      refine ⟨content.takeWhile Text.isBlank, content.dropWhile Text.isBlank,
        List.takeWhile_append_dropWhile.symm, (triviaLength_of_none comment).symm, ?_⟩
      simpa using Trivia.blanks (blank content) .nothing
  | case2 content blanks text comment shorter inductionHypothesis =>
      simp only [blanks, drop_length_takeWhile] at comment inductionHypothesis
      obtain ⟨gap, rest, split, size, trivia⟩ := inductionHypothesis
      obtain ⟨behind, front⟩ := (commentFront_eq_some comment).2
      rw [← front, List.drop_left] at split
      subst split
      refine ⟨content.takeWhile Text.isBlank ++ (text ++ gap), rest, ?_, ?_, ?_⟩
      · rw [List.append_assoc, List.append_assoc, front, List.takeWhile_append_dropWhile]
      · rw [triviaLength_of_some comment, ← size, List.length_append, List.length_append]
      · apply Trivia.blanks (blank content)
        obtain ⟨body, oneLine, ⟨lineBreak, ends, rfl⟩ | ⟨rfl, whole⟩⟩ := commentFront_cases comment
        · simpa using Trivia.comment oneLine ends trivia
        · -- Nothing is left behind a comment that reaches to the end.
          have nothing : gap ++ rest = [] := List.append_cancel_left (by rw [front, whole]; simp)
          obtain ⟨rfl, rfl⟩ := List.append_eq_nil_iff.mp nothing
          simpa using Trivia.lastComment oneLine

/-- Behind blanks and comments neither a blank nor a comment stands. -/
theorem noTrivia_of_triviaLength {content : List Char} (nothing : triviaLength content = 0) :
    (∀ glyph, content.head? = some glyph → Text.isBlank glyph = false) ∧
      content.head? ≠ some '#' := by
  cases comment : commentFront (content.dropWhile Text.isBlank) with
  | none =>
      rw [triviaLength_of_none comment, List.length_eq_zero_iff] at nothing
      have same := List.takeWhile_append_dropWhile (p := Text.isBlank) (l := content)
      rw [nothing, List.nil_append] at same
      rw [same] at comment
      refine ⟨?_, commentFront_eq_none_iff.mp comment⟩
      cases content with
      | nil => simp
      | cons glyph others => simpa [List.takeWhile_cons] using nothing
  | some text =>
      have nonempty := List.length_pos_iff.mpr (commentFront_eq_some comment).1
      rw [triviaLength_of_some comment] at nothing
      omega

theorem unmatched_of_frontKind {content : List Char} (trimmed : triviaLength content = 0)
    (nothing : frontKind content = none) : Unmatched content where
  noBlank := (noTrivia_of_triviaLength trimmed).1
  noComment := (noTrivia_of_triviaLength trimmed).2
  noToken := fun _ _ => noToken_of_frontKind nothing

theorem triviaLength_cons_blank {glyph : Char} (blank : Text.isBlank glyph = true)
    (content : List Char) : triviaLength (glyph :: content) = triviaLength content + 1 := by
  have same : (glyph :: content).dropWhile Text.isBlank = content.dropWhile Text.isBlank := by
    simp [blank]
  cases comment : commentFront (content.dropWhile Text.isBlank) with
  | none =>
      rw [triviaLength_of_none comment, triviaLength_of_none (same ▸ comment)]
      simp [blank]
  | some text =>
      rw [triviaLength_of_some comment, triviaLength_of_some (same ▸ comment), same]
      simp [blank]
      omega

theorem triviaLength_of_comment {body text : List Char} (rest : List Char)
    (comment : commentFront ('#' :: body) = some text) (split : '#' :: body = text ++ rest) :
    triviaLength ('#' :: body) = text.length + triviaLength rest := by
  have noBlank : Text.isBlank '#' = false := by decide
  have same : ('#' :: body).dropWhile Text.isBlank = '#' :: body := by simp [noBlank]
  rw [triviaLength_of_some (same ▸ comment), same, split, List.drop_left, ← split]
  simp [noBlank]

theorem commentFront_of_body {body : List Char} (behind : List Char)
    (oneLine : ∀ glyph ∈ body, breaksLine glyph = false)
    (ends : ∀ glyph, behind.head? = some glyph → breaksLine glyph = true) :
    commentFront ('#' :: (body ++ behind)) = some ('#' :: (body ++ behind.head?.toList)) := by
  have line : (body ++ behind).takeWhile staysOnLine = body :=
    takeWhile_append_eq_iff.mpr
      ⟨by simpa [staysOnLine] using oneLine, by simpa [staysOnLine] using ends⟩
  have others : (body ++ behind).dropWhile staysOnLine = behind := by
    rw [← drop_length_takeWhile, line, List.drop_left]
  simp only [commentFront, line, others]

/-- Trivia in front of something else is all that is skipped. -/
theorem triviaLength_of_trivia {gap rest : List Char} (trivia : Trivia gap rest)
    (noBlank : ∀ glyph, rest.head? = some glyph → Text.isBlank glyph = false)
    (noComment : rest.head? ≠ some '#') : triviaLength (gap ++ rest) = gap.length := by
  induction trivia with
  | @nothing rest =>
      refine triviaLength_eq_zero ?_ (commentFront_eq_none_iff.mpr noComment)
      cases rest with
      | nil => rfl
      | cons glyph others => simp [noBlank glyph rfl]
  | blank blank others inductionHypothesis =>
      rw [List.cons_append, triviaLength_cons_blank blank, inductionHypothesis noBlank noComment]
      rfl
  | @comment body gap rest lineBreak oneLine ends others inductionHypothesis =>
      have front := commentFront_of_body (lineBreak :: (gap ++ rest)) oneLine
        (by simpa using ends)
      have length := triviaLength_of_comment (gap ++ rest) front (by simp)
      rw [inductionHypothesis noBlank noComment] at length
      simp only [List.cons_append, List.append_assoc, length, List.length_cons, List.length_append,
        List.head?_cons, Option.toList_some, List.length_nil]
      omega
  | @lastComment body oneLine =>
      have front := commentFront_of_body [] oneLine (by simp)
      have length := triviaLength_of_comment [] front (by simp)
      have nothing : triviaLength [] = 0 := triviaLength_eq_zero rfl rfl
      simpa [nothing] using length

/-! ## Tilings -/

/-- The line of what stands behind a text. -/
def lineBehind (before : List Char) : Nat :=
  1 + before.countP breaksLine

/-- The rest of a text, behind what comes before it, is trivia, a token, trivia, a token, and so on,
up to the end or to a character that is none of both. Every token and the error carry the line that
they stand on. -/
inductive Tiled (source : String) :
    List Char → List Char → List Lexeme → Option LexError → Prop where
  | finished {before gap : List Char} (trivia : Trivia gap []) : Tiled source before gap [] none
  | unmatched {before gap rest : List Char} {glyph : Char} (trivia : Trivia gap (glyph :: rest))
      (unmatched : Unmatched (glyph :: rest)) :
      Tiled source before (gap ++ glyph :: rest) []
        (some ⟨lineBehind (before ++ gap), glyph.toString, source⟩)
  | token {before gap text rest : List Char} {kind : Kind} {lexemes : List Lexeme}
      {ending : Option LexError} (trivia : Trivia gap (text ++ rest)) (spells : kind.Spells text)
      (complete : kind.Complete text rest)
      (others : Tiled source (before ++ gap ++ text) rest lexemes ending) :
      Tiled source before (gap ++ (text ++ rest))
        (⟨kind, String.ofList text, lineBehind (before ++ gap), source⟩ :: lexemes) ending

/-- The passage of a text behind what comes before it. -/
def Passage.behind (source : String) (before content : List Char) : Passage :=
  ⟨source, lineBehind before, content⟩

theorem Passage.past_behind (source : String) (before text rest : List Char) :
    (behind source before (text ++ rest)).past text.length = behind source (before ++ text) rest := by
  simp [behind, past, lineBehind, Nat.add_assoc]

theorem Passage.trimmed_behind (source : String) (before content : List Char) :
    ∃ gap rest, content = gap ++ rest ∧ Trivia gap rest ∧ triviaLength rest = 0 ∧
      (behind source before content).trimmed = behind source (before ++ gap) rest := by
  obtain ⟨gap, rest, rfl, size, trivia⟩ := trivia_of_triviaLength content
  have trimmed := triviaLength_drop (gap ++ rest)
  rw [← size, List.drop_left] at trimmed
  refine ⟨gap, rest, rfl, trivia, trimmed, ?_⟩
  rw [Passage.trimmed, show (behind source before (gap ++ rest)).content = gap ++ rest from rfl,
    ← size, past_behind]

/-- The tokens of a passage tile it. -/
theorem tiled_lex (source : String) (before content : List Char) :
    Tiled source before content (Passage.behind source before content).lex.1
      (Passage.behind source before content).lex.2 := by
  generalize located : Passage.behind source before content = passage
  induction passage using Passage.lex.induct generalizing before content with
  | case1 passage found =>
      subst located
      obtain ⟨gap, rest, rfl, trivia, -, trimmed⟩ := Passage.trimmed_behind source before content
      have finished := Passage.front_eq_nothing found
      rw [trimmed] at finished
      obtain rfl : rest = [] := finished
      rw [Passage.lex_of_nothing found, List.append_nil]
      exact .finished trivia
  | case2 passage error found =>
      subst located
      obtain ⟨gap, rest, rfl, trivia, blank, trimmed⟩ := Passage.trimmed_behind source before content
      obtain ⟨glyph, others, content, nothing, rfl⟩ := Passage.front_eq_unknown found
      rw [Passage.lex_of_unknown found]
      rw [trimmed] at content nothing ⊢
      obtain rfl : rest = glyph :: others := content
      exact .unmatched trivia (unmatched_of_frontKind blank nothing)
  | case3 passage lexeme rest found shorter inductionHypothesis =>
      subst located
      obtain ⟨gap, token, rfl, trivia, blank, trimmed⟩ := Passage.trimmed_behind source before content
      obtain ⟨kind, text, chosen, extracted, rfl, rfl⟩ := Passage.front_eq_token found
      rw [Passage.lex_of_token found]
      rw [trimmed] at chosen extracted inductionHypothesis ⊢
      obtain ⟨behind, rfl, complete⟩ := complete_of_frontKind chosen extracted
      have others := inductionHypothesis _ _
        (Passage.past_behind source (before ++ gap) text behind).symm
      have spells := Kind.spells_of_front extracted (noTrivia_of_triviaLength blank).2
      exact .token trivia spells complete others

theorem Passage.trimmed_of_trivia (source : String) (before : List Char) {gap rest : List Char}
    (trivia : Trivia gap rest)
    (noBlank : ∀ glyph, rest.head? = some glyph → Text.isBlank glyph = false)
    (noComment : rest.head? ≠ some '#') :
    (behind source before (gap ++ rest)).trimmed = behind source (before ++ gap) rest := by
  rw [Passage.trimmed, ← past_behind]
  exact congrArg _ (triviaLength_of_trivia trivia noBlank noComment)

/-- A tiling is made of the tokens of the passage. -/
theorem lex_of_tiled {source : String} {before content : List Char} {lexemes : List Lexeme}
    {ending : Option LexError} (tiled : Tiled source before content lexemes ending) :
    (Passage.behind source before content).lex = (lexemes, ending) := by
  induction tiled with
  | @finished before gap trivia =>
      have front := Passage.front_of_nil (congrArg Passage.content
        (Passage.trimmed_of_trivia source before trivia (by simp) (by simp)))
      rw [List.append_nil] at front
      exact Passage.lex_of_nothing front
  | @unmatched before gap rest glyph trivia unmatched =>
      have stands := Passage.trimmed_of_trivia source before trivia unmatched.noBlank
        unmatched.noComment
      have front := Passage.front_of_none (congrArg Passage.content stands)
        (by rw [stands]; exact frontKind_of_unmatched unmatched)
      rw [stands] at front
      exact Passage.lex_of_unknown front
  | @token before gap text rest kind lexemes ending trivia spells complete others
      inductionHypothesis =>
      obtain ⟨first, behind, begins, noBlank, noComment⟩ := Kind.begins_of_spells spells
      have stands := Passage.trimmed_of_trivia source before trivia (by simp [begins, noBlank])
        (by simp [begins, noComment])
      have front := @Passage.front_of_some (.behind source before (gap ++ (text ++ rest))) kind text
        (by rw [stands]; exact frontKind_of_complete spells complete)
        (by rw [stands]; exact front_of_complete spells complete)
      rw [stands, Passage.past_behind] at front
      rw [Passage.lex_of_token front, inductionHypothesis]
      rfl

/-! ## Taking token after token -/

/-- Asking a lexer for token after token comes to an end: the tokens, and the error if it is one. -/
inductive Lexer.Yields : Lexer → List Lexeme → Option LexError → Prop where
  | finished {lexer : Lexer} (ends : lexer.next.1 = .ok none) : Yields lexer [] none
  | refused {lexer : Lexer} {error : LexError} (fails : lexer.next.1 = .error error) :
      Yields lexer [] (some error)
  | token {lexer : Lexer} {lexeme : Lexeme} {lexemes : List Lexeme} {ending : Option LexError}
      (found : lexer.next.1 = .ok (some lexeme)) (others : Yields lexer.next.2 lexemes ending) :
      Yields lexer (lexeme :: lexemes) ending

theorem Lexer.yields_outlook {lexer : Lexer} (steady : lexer.Steady) :
    lexer.Yields lexer.outlook.ahead lexer.outlook.ending := by
  generalize follow : lexer.outlook.ahead = lexemes
  induction lexemes generalizing lexer with
  | nil =>
      obtain ⟨result, -, -⟩ := next_spec steady
      cases ends : lexer.outlook.ending with
      | none => exact .finished (by simp [result, Outlook.next, follow, ends])
      | some error => exact .refused (by simp [result, Outlook.next, follow, ends])
  | cons lexeme others inductionHypothesis =>
      obtain ⟨result, steadyNext, after⟩ := next_spec steady
      have step : lexer.outlook.next =
          (.ok (some lexeme), { lexer.outlook with ahead := others }) := by
        simp [Outlook.next, follow]
      rw [step] at result after
      have rest := inductionHypothesis steadyNext (congrArg Outlook.ahead after)
      rw [congrArg Outlook.ending after] at rest
      exact .token result rest

theorem Buffer.passage_ofText (text : List Char) :
    (ofText text).passage = .behind textSourceName [] text := by
  simp [passage, content, supply, ofText, start, Passage.behind, lineBehind]

/-- Taking token after token from a text comes to an end, at the end of the text or at the first
error. The tokens tile the text, each on its line, and this is the only tiling that there is. -/
theorem tokens_tile_text (text : List Char) :
    let lexer := Lexer.ofBuffer (.ofText text)
    lexer.Yields lexer.tokenize.1 lexer.tokenize.2.1 ∧
      Tiled textSourceName [] text lexer.tokenize.1 lexer.tokenize.2.1 ∧
      ∀ lexemes ending, Tiled textSourceName [] text lexemes ending →
        lexemes = lexer.tokenize.1 ∧ ending = lexer.tokenize.2.1 := by
  intro lexer
  have steady : lexer.Steady :=
    Lexer.steady_ofBuffer (Buffer.plain_start textSourceName text none).sound
  have outlook := Lexer.outlook_ofBuffer (.ofText text)
  rw [Buffer.passage_ofText] at outlook
  obtain ⟨ahead, ends⟩ := Lexer.tokenize_spec steady
  have yields := Lexer.yields_outlook steady
  rw [ahead, ends]
  refine ⟨yields, ?_, ?_⟩
  · rw [show lexer.outlook = _ from outlook]
    exact tiled_lex textSourceName [] text
  · intro lexemes ending tiled
    rw [show lexer.outlook = _ from outlook, lex_of_tiled tiled]
    exact ⟨rfl, rfl⟩

end TapeMachine
