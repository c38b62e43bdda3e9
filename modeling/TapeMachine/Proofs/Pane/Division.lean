import TapeMachine.Pane.Highlight

/-!
Contract: the colouring of a line loses nothing of it, and cuts it in one way only.

Owns: what a span of a line can be where it stands, the first span of a line, and from it the
division of the whole line.

What a span can be depends on its neighbours: a word goes on to neither side, and a quote is a
character by itself only if it opens no quoted one. What has been read before matters no further, so
the first span is found from the rest of the line alone, and the others in the same way.
-/

namespace TapeMachine.Highlight

/-! ## Spans where they stand -/

/-- What a span of a line is, between the text in front of it and the text behind it: the comment,
with which the line ends, a quoted character, a single character that is no part of a word, or a
word that goes on neither to the left nor to the right. -/
inductive Stands (front back : List Char) : Span → Prop where
  | comment (remark : List Char) (last : back = []) :
      Stands front back ⟨'#' :: remark, .inColor Palette.muted⟩
  | quoted (glyph : Char) :
      Stands front back ⟨['\'', glyph, '\''], .inColor Palette.string⟩
  | mark (glyph : Char) (other : isWordPart glyph = false) (plain : glyph ≠ '#')
      (unquoted : glyph = '\'' → back[1]? ≠ some '\'') :
      Stands front back ⟨[glyph], markStyle glyph⟩
  | word (letters : List Char) (nonempty : letters ≠ [])
      (parts : ∀ glyph ∈ letters, isWordPart glyph = true)
      (begun : ∀ glyph ∈ front.getLast?, isWordPart glyph = false)
      (ended : ∀ glyph ∈ back.head?, isWordPart glyph = false) :
      Stands front back ⟨letters, wordStyle letters (back.head? = some ':')⟩

/-- Spans that make up a line behind some text and each of which is what it can be there. -/
structure Divides (front line : List Char) (division : List Span) : Prop where
  lossless : division.flatMap Span.text = line
  standing : ∀ before span after, division = before ++ span :: after →
    Stands (front ++ before.flatMap Span.text) (after.flatMap Span.text) span

theorem Divides.nil (front : List Char) : Divides front [] [] where
  lossless := rfl
  standing := by simp

theorem Divides.cons {front back : List Char} {span : Span} {others : List Span}
    (first : Stands front back span) (rest : Divides (front ++ span.text) back others) :
    Divides front (span.text ++ back) (span :: others) where
  lossless := by rw [List.flatMap_cons, rest.lossless]
  standing := by
    intro before inner after cut
    cases before with
    | nil =>
        obtain ⟨rfl, rfl⟩ := List.cons.inj cut
        rwa [List.flatMap_nil, List.append_nil, rest.lossless]
    | cons outer before =>
        obtain ⟨rfl, others⟩ := List.cons.inj cut
        rw [List.flatMap_cons, ← List.append_assoc]
        exact rest.standing before inner after others

theorem Divides.head {front line : List Char} {span : Span} {others : List Span}
    (divides : Divides front line (span :: others)) :
    Stands front (others.flatMap Span.text) span := by
  have first := divides.standing [] span others rfl
  rwa [List.flatMap_nil, List.append_nil] at first

theorem Divides.tail {front line : List Char} {span : Span} {others : List Span}
    (divides : Divides front line (span :: others)) :
    Divides (front ++ span.text) (others.flatMap Span.text) others where
  lossless := rfl
  standing := by
    intro before inner after cut
    have inside := divides.standing (span :: before) inner after (congrArg (span :: ·) cut)
    rwa [List.flatMap_cons, ← List.append_assoc] at inside

/-! ## Reading on -/

/-- Neither a comment nor a quoted character begins here. -/
theorem spansFrom_cons (word : List Char) {glyph : Char} {rest : List Char} (plain : glyph ≠ '#')
    (unquoted : glyph = '\'' → rest[1]? ≠ some '\'') :
    spansFrom word (glyph :: rest) =
      if isWordPart glyph then spansFrom (glyph :: word) rest
      else wordSpan word (glyph = ':') ++ ⟨[glyph], markStyle glyph⟩ :: spans rest := by
  -- Unfolded as a whole, since the equation of one branch would first search the table of letters.
  rw [spansFrom.eq_def]
  split
  case h_1 none => cases none
  case h_2 same => exact absurd (List.cons.inj same).1 plain
  case h_3 same =>
    obtain ⟨rfl, rfl⟩ := List.cons.inj same
    exact absurd rfl (unquoted rfl)
  case h_4 same =>
    obtain ⟨rfl, rfl⟩ := List.cons.inj same
    rfl

theorem isWordPart_hash : isWordPart '#' = false := by
  decide +kernel

theorem isWordPart_quote : isWordPart '\'' = false := by
  decide +kernel

theorem spansFrom_letter (word : List Char) {glyph : Char} (part : isWordPart glyph = true)
    (rest : List Char) : spansFrom word (glyph :: rest) = spansFrom (glyph :: word) rest := by
  have differs (mark : Char) (outside : isWordPart mark = false) : glyph ≠ mark := by
    intro same
    rw [same, outside] at part
    contradiction
  have plain : glyph ≠ '#' := differs _ isWordPart_hash
  have unquoted : glyph ≠ '\'' := differs _ isWordPart_quote
  rw [spansFrom_cons word plain fun same => absurd same unquoted, if_pos part]

theorem spansFrom_letters (word letters rest : List Char)
    (parts : ∀ glyph ∈ letters, isWordPart glyph = true) :
    spansFrom word (letters ++ rest) = spansFrom (letters.reverse ++ word) rest := by
  induction letters generalizing word with
  | nil => rfl
  | cons glyph letters inductionHypothesis =>
      rw [List.cons_append, spansFrom_letter word (parts glyph List.mem_cons_self),
        inductionHypothesis _ fun other member => parts other (List.mem_cons_of_mem _ member),
        List.reverse_cons, List.append_assoc, List.singleton_append]

/-- A word that has been read is complete as soon as no letter follows. -/
theorem spansFrom_of_ended (word : List Char) {rest : List Char}
    (ended : ∀ glyph ∈ rest.head?, isWordPart glyph = false) :
    spansFrom word rest = wordSpan word (rest.head? = some ':') ++ spans rest := by
  rw [spans, spansFrom.eq_def, spansFrom.eq_def []]
  -- Neither the end of the line nor a comment nor a quoted character begins with a colon.
  split
  case h_1 => exact (List.append_nil _).symm
  case h_2 => rfl
  case h_3 => rfl
  case h_4 glyph others _ _ =>
    have other : ¬ isWordPart glyph = true := by simp [ended glyph rfl]
    rw [if_neg other, if_neg other]
    simp only [List.head?_cons, Option.some.injEq]
    rfl

/-! ## The first span -/

/-- A span that can stand in front of the rest of a line is the first one of both together. -/
theorem Stands.spans_append {front back : List Char} {span : Span}
    (stands : Stands front back span) : spans (span.text ++ back) = span :: spans back := by
  cases stands with
  | comment remark last =>
      subst last
      rw [List.append_nil]
      rfl
  | quoted glyph => rfl
  | mark glyph other plain unquoted =>
      rw [List.singleton_append, spans, spansFrom_cons [] plain unquoted, if_neg (by simp [other])]
      rfl
  | word letters nonempty parts begun ended =>
      have reversed : letters.reverse ≠ [] := mt List.reverse_eq_nil_iff.mp nonempty
      rw [spans, spansFrom_letters [] letters back parts, List.append_nil,
        spansFrom_of_ended _ ended, wordSpan, if_neg reversed, List.reverse_reverse,
        List.singleton_append]

/-- No word reaches from the text in front of a line into the line. -/
def Apart (front line : List Char) : Prop :=
  ∀ last ∈ front.getLast?, ∀ first ∈ line.head?, isWordPart first = true → isWordPart last = false

theorem Stands.apart {front back : List Char} {span : Span} (stands : Stands front back span) :
    Apart (front ++ span.text) back := by
  intro last final first begins part
  cases stands with
  | comment remark ends =>
      subst ends
      cases begins
  | quoted glyph =>
      obtain rfl : '\'' = last := by simpa using final
      exact isWordPart_quote
  | mark glyph other plain unquoted =>
      obtain rfl : glyph = last := by simpa using final
      exact other
  | word letters nonempty parts begun ended =>
      rw [ended first begins] at part
      contradiction

theorem exists_stands_word {front line : List Char} {glyph : Char}
    (begins : line.head? = some glyph) (part : isWordPart glyph = true)
    (apart : Apart front line) :
    ∃ span back, span.text ++ back = line ∧ Stands front back span := by
  have nonempty : line.takeWhile isWordPart ≠ [] := by
    obtain ⟨rest, rfl⟩ := List.head?_eq_some_iff.mp begins
    rw [List.takeWhile_cons, if_pos part]
    exact List.cons_ne_nil _ _
  have parts : ∀ letter ∈ line.takeWhile isWordPart, isWordPart letter = true :=
    List.all_eq_true.mp List.all_takeWhile
  have begun : ∀ last ∈ front.getLast?, isWordPart last = false :=
    fun last final => apart last final glyph begins part
  have ended : ∀ next ∈ (line.dropWhile isWordPart).head?, isWordPart next = false := by
    intro next follows
    have stops := List.head?_dropWhile_not isWordPart line
    rw [Option.mem_def.mp follows] at stops
    exact stops
  exact ⟨_, _, List.takeWhile_append_dropWhile, .word _ nonempty parts begun ended⟩

/-- Whatever stands at the front of the rest of a line, some span can begin there. -/
theorem exists_stands {front : List Char} {glyph : Char} {rest : List Char}
    (apart : Apart front (glyph :: rest)) :
    ∃ span back, span.text ++ back = glyph :: rest ∧ Stands front back span := by
  by_cases plain : glyph = '#'
  · subst plain
    exact ⟨_, [], List.append_nil _, .comment rest rfl⟩
  by_cases quoting : glyph = '\'' ∧ rest[1]? = some '\''
  · obtain ⟨rfl, closing⟩ := quoting
    match rest with
    | [] | [_] => cases closing
    | inner :: quote :: back =>
        obtain rfl : quote = '\'' := Option.some.inj closing
        exact ⟨_, back, rfl, .quoted inner⟩
  cases part : isWordPart glyph with
  | true => exact exists_stands_word rfl part apart
  | false =>
      exact ⟨_, rest, rfl, .mark glyph part plain fun quote closing => quoting ⟨quote, closing⟩⟩

theorem Stands.text_ne_nil {front back : List Char} {span : Span}
    (stands : Stands front back span) : span.text ≠ [] := by
  cases stands with
  | comment | quoted | mark => exact List.cons_ne_nil _ _
  | word letters nonempty parts begun ended => exact nonempty

/-! ## The whole line -/

/-- One span after the other; each leaves to the next what that needs to know of its front. -/
theorem divides_spans {front line : List Char} (apart : Apart front line) :
    Divides front line (spans line) := by
  cases line with
  | nil => exact .nil front
  | cons glyph rest =>
      obtain ⟨span, back, whole, stands⟩ := exists_stands apart
      have shorter : back.length < (glyph :: rest).length := by
        have := List.length_pos_iff.mpr stands.text_ne_nil
        rw [← whole, List.length_append]
        omega
      rw [← whole, stands.spans_append]
      exact .cons stands (divides_spans stands.apart)
termination_by line.length

theorem Divides.eq_spans {front line : List Char} {division : List Span}
    (divides : Divides front line division) : division = spans line := by
  obtain rfl := divides.lossless
  induction division generalizing front with
  | nil => rfl
  | cons span others inductionHypothesis =>
      rw [List.flatMap_cons, divides.head.spans_append, ← inductionHypothesis divides.tail]

/-- The texts of the spans of a line, one after the other, are the line, and every span is the
comment at its end, a quoted character, a single character that is no part of a word, or a longest
run of characters that are. No other spans divide the line in this way. -/
theorem spans_eq_iff_lossless (line : List Char) (division : List Span) :
    spans line = division ↔
      division.flatMap Span.text = line ∧
        ∀ before span after, division = before ++ span :: after →
          Stands (before.flatMap Span.text) (after.flatMap Span.text) span := by
  constructor
  case mp =>
    intro same
    subst same
    have divides : Divides [] line (spans line) := divides_spans (by simp [Apart])
    exact ⟨divides.lossless, divides.standing⟩
  case mpr =>
    intro parts
    have divides : Divides [] line division := ⟨parts.1, parts.2⟩
    exact divides.eq_spans.symm

-- A hash sign in quotes begins no comment, and a quote that opens nothing stays alone.
example : (spans "l: write '#'; 'é #'x".toList).map (String.ofList ∘ Span.text) =
    ["l", ":", " ", "write", " ", "'#'", ";", " ", "'", "é", " ", "#'x"] := by
  decide +kernel

end TapeMachine.Highlight
