import TapeMachine.Proofs.Code.Layout
import TapeMachine.Proofs.Code.Origin
import TapeMachine.Proofs.Text.Lines

/-!
Contract: which row of the text an instruction points to.

Owns: the places of a text where tokens begin, the line of such a place, and the comparison of the
line of an instruction with the row that the first character of its token is shown in.

Lines and rows are counted by different rules. A form feed ends a line, but only a line feed ends a
row. The line of an instruction is thus too large by the number of form feeds in front of its token.
-/

namespace TapeMachine

/-! ## Places of tokens -/

/-- In the rest of a text, behind what comes before it, a token begins at a place of the text. -/
inductive Begins (source : String) : List Char → List Char → Lexeme → List Char → Prop where
  | here {before gap text rest : List Char} {kind : Kind} (trivia : Trivia gap (text ++ rest))
      (spells : kind.Spells text) (complete : kind.Complete text rest) :
      Begins source before (gap ++ (text ++ rest))
        ⟨kind, String.ofList text, lineBehind (before ++ gap), source⟩ (before ++ gap)
  | later {before gap text rest place : List Char} {kind : Kind} {lexeme : Lexeme}
      (trivia : Trivia gap (text ++ rest)) (spells : kind.Spells text)
      (complete : kind.Complete text rest)
      (others : Begins source (before ++ gap ++ text) rest lexeme place) :
      Begins source before (gap ++ (text ++ rest)) lexeme place

theorem Tiled.begins {source : String} {before content : List Char} {lexemes : List Lexeme}
    {ending : Option LexError} (tiled : Tiled source before content lexemes ending)
    {lexeme : Lexeme} (member : lexeme ∈ lexemes) :
    ∃ place, Begins source before content lexeme place := by
  induction tiled with
  | finished => contradiction
  | unmatched => contradiction
  | token trivia spells complete _ inductionHypothesis =>
      rcases List.mem_cons.mp member with rfl | member
      · exact ⟨_, .here trivia spells complete⟩
      · obtain ⟨place, begins⟩ := inductionHypothesis member
        exact ⟨place, .later trivia spells complete begins⟩

/-- What is found where tokens begin is a token of the passage. -/
theorem Begins.mem_lex {source : String} {before content place : List Char} {lexeme : Lexeme}
    (begins : Begins source before content lexeme place) :
    lexeme ∈ (Passage.behind source before content).lex.1 := by
  induction begins with
  | here trivia spells complete =>
      rw [lex_of_tiled (.token trivia spells complete (tiled_lex _ _ _))]
      exact List.mem_cons_self
  | later trivia spells complete _ inductionHypothesis =>
      rw [lex_of_tiled (.token trivia spells complete (tiled_lex _ _ _))]
      exact List.mem_cons_of_mem _ inductionHypothesis

/-- The tokens of a text are what begins somewhere in it. -/
theorem mem_tokensOf_iff {text : List Char} {lexeme : Lexeme} :
    lexeme ∈ (tokensOf text).1 ↔ ∃ place, Begins textSourceName [] text lexeme place := by
  refine ⟨fun member => (tiled_tokensOf text).begins member, fun ⟨_, begins⟩ => ?_⟩
  rw [tokensOf_eq, Buffer.passage_ofText]
  exact begins.mem_lex

/-- A token carries the line of its place, and no token begins with a blank. -/
theorem Begins.split {source : String} {before content place : List Char} {lexeme : Lexeme}
    (begins : Begins source before content lexeme place) :
    lexeme.line = lineBehind place ∧ ∃ glyph after,
      before ++ content = place ++ glyph :: after ∧ Text.isBlank glyph = false := by
  induction begins with
  | @here before gap text rest kind trivia spells complete =>
      obtain ⟨glyph, others, rfl, noBlank, -⟩ := Kind.begins_of_spells spells
      exact ⟨rfl, glyph, others ++ rest, by simp, noBlank⟩
  | later _ _ _ _ inductionHypothesis =>
      simpa using inductionHypothesis

/-! ## Lines and rows -/

theorem lineBehind_eq (place : List Char) :
    lineBehind place = place.count '\n' + place.count '\x0c' + 1 := by
  induction place with
  | nil => rfl
  | cons glyph place inductionHypothesis =>
      simp only [lineBehind, List.countP_cons, List.count_cons] at inductionHypothesis ⊢
      by_cases feed : glyph = '\n'
      · subst feed
        simp [breaksLine]
        omega
      · by_cases form : glyph = '\x0c'
        · subst form
          simp [breaksLine]
          omega
        · simp [breaksLine, feed, form]
          omega

/-- The row that a token is shown in, beside the line that it carries. -/
theorem Begins.shownIn_iff {text place : List Char} {lexeme : Lexeme}
    (begins : Begins textSourceName [] text lexeme place) {number : Nat} :
    Text.ShownIn text number place ↔ number + place.count '\x0c' = lexeme.line := by
  obtain ⟨line, glyph, after, split, noBlank⟩ := begins.split
  have noFeed : glyph ≠ '\n' := by
    rintro rfl
    exact absurd noBlank (by decide)
  have noReturn : glyph ≠ '\r' := by
    rintro rfl
    exact absurd noBlank (by decide)
  rw [List.nil_append] at split
  rw [split, Text.shownIn_iff noFeed noReturn, line, lineBehind_eq]
  omega

/-- Every instruction of every routine has a line, and it comes from a token of the text. Wherever
this token begins, the first character is shown in the row whose number is the line less the form
feeds in front of it. So the row with the number of the line is the right one exactly if there is no
form feed in front of the token. -/
theorem line_shows_token (text : List Char) (executable : Executable)
    (compiled : (Buffer.ofText text).compile = .ok executable) (routine : Routine)
    (instructions : Array Instruction)
    (found : executable.instructions? routine = some instructions) (index : Nat)
    (within : index < instructions.size) :
    ∃ line, executable.sourceLine? routine index = some line ∧
      (∃ emissions, Phrases ItemTrace (tokensOf text).1 emissions) ∧
      ∀ emissions, Phrases ItemTrace (tokensOf text).1 emissions →
        ∃ entries entry, Emission.trace? emissions routine = some entries ∧
          entries[index]? = some entry ∧
          (∃ place, Begins textSourceName [] text entry.2 place) ∧
          ∀ place, Begins textSourceName [] text entry.2 place →
            Text.ShownIn text (line - place.count '\x0c') place ∧
              (Text.ShownIn text line place ↔ '\x0c' ∉ place) := by
  obtain ⟨emissions, derived⟩ := emissions_of_compile compiled
  obtain ⟨_, origin, -, -, known⟩ := entry_of_compile compiled derived found within
  refine ⟨origin.2.line, known, ⟨emissions, derived⟩, fun emissions derived => ?_⟩
  obtain ⟨entries, entry, traced, present, carried⟩ :=
    entry_of_compile compiled derived found within
  have same : origin.2.line = entry.2.line := Option.some.inj (known.symm.trans carried)
  have member := Emission.origin_of_trace? derived traced entry (List.mem_of_getElem? present)
  refine ⟨entries, entry, traced, present, mem_tokensOf_iff.mp member, ?_⟩
  intro place begins
  have line := begins.split.1.trans (lineBehind_eq place)
  rw [begins.shownIn_iff, begins.shownIn_iff, same, ← List.count_eq_zero]
  omega

/-- A row with a comment, a blank row, and a row with the program. -/
def thirdRowText : List Char :=
  "# first\r\n\r\n  halt;".toList

theorem line_shows_token_thirdRowText :
    ∃ executable, (Buffer.ofText thirdRowText).compile = .ok executable ∧
      executable.sourceLine? .main 0 = some 3 ∧
      ∃ emissions entries entry place, Phrases ItemTrace (tokensOf thirdRowText).1 emissions ∧
        Emission.trace? emissions .main = some entries ∧ entries[0]? = some entry ∧
        Begins textSourceName [] thirdRowText entry.2 place ∧
        Text.ShownIn thirdRowText 3 place := by
  have checked : (Buffer.ofText thirdRowText).compile.toOption.map Executable.main =
      some ⟨#[.halt], #[3]⟩ := by
    decide +kernel
  have noForm : ∀ lexeme place, Begins textSourceName [] thirdRowText lexeme place →
      '\x0c' ∉ place := by
    intro lexeme place begins form
    obtain ⟨-, glyph, after, split, -⟩ := begins.split
    have absent : '\x0c' ∉ [] ++ thirdRowText := by decide
    exact absent (by rw [split]; exact List.mem_append_left _ form)
  cases compiled : (Buffer.ofText thirdRowText).compile with
  | error error =>
      rw [compiled] at checked
      contradiction
  | ok executable =>
      rw [compiled] at checked
      have main : executable.main = ⟨#[.halt], #[3]⟩ := Option.some.inj checked
      have found : executable.instructions? .main = some #[.halt] := congrArg _ (congrArg _ main)
      obtain ⟨line, known, ⟨emissions, derived⟩, origins⟩ :=
        line_shows_token thirdRowText executable compiled .main #[.halt] found 0 (by decide)
      have third : executable.sourceLine? .main 0 = some 3 := by
        rw [Executable.sourceLine?, Executable.sequence?, main]
        rfl
      obtain rfl : line = 3 := Option.some.inj (known.symm.trans third)
      obtain ⟨entries, entry, traced, present, ⟨place, begins⟩, shown⟩ := origins emissions derived
      have inRow := (shown place begins).2.mpr (noForm _ _ begins)
      exact ⟨executable, rfl, third, emissions, entries, entry, place, derived, traced, present,
        begins, inRow⟩

/-- A form feed, and then a program of one instruction. -/
def pageText : List Char :=
  "\x0chalt;".toList

/-- The instruction has the second line, but the text has one row only. -/
theorem line_not_shown_pageText :
    (∃ executable, (Buffer.ofText pageText).compile = .ok executable ∧
      executable.instructions? .main = some #[.halt] ∧
      executable.sourceLine? .main 0 = some 2) ∧
    (Text.lines pageText).length = 1 ∧ ∀ place, ¬ Text.ShownIn pageText 2 place := by
  have oneRow : (Text.lines pageText).length = 1 := by decide
  refine ⟨?_, oneRow, fun place shown => ?_⟩
  · have checked : (Buffer.ofText pageText).compile.toOption.map Executable.main =
        some ⟨#[.halt], #[2]⟩ := by
      decide +kernel
    cases compiled : (Buffer.ofText pageText).compile with
    | error error =>
        rw [compiled] at checked
        contradiction
    | ok executable =>
        rw [compiled] at checked
        have main : executable.main = ⟨#[.halt], #[2]⟩ := Option.some.inj checked
        refine ⟨executable, rfl, congrArg _ (congrArg _ main), ?_⟩
        rw [Executable.sourceLine?, Executable.sequence?, main]
        rfl
  · have bound := shown.le_length
    omega

end TapeMachine
