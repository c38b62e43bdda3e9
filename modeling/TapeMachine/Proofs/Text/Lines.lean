import Mathlib.Data.List.Basic
import TapeMachine.Text.Lines

/-!
Contract: in which row of a text a character is shown.

Owns: texts that are made of whole rows, the rows of a text behind such a text, and the row of a
character, which is one more than the number of line feeds in front of it.

A carriage return that belongs to the ending of its row is shown in no row. A character that is
neither a line feed nor a carriage return is shown in exactly one.
-/

namespace TapeMachine.Text

/-! ## Whole rows -/

/-- A text that is nothing but rows with their line feeds. -/
inductive WholeRows : List Char → Prop where
  | nothing : WholeRows []
  | row {row rest : List Char} (oneRow : '\n' ∉ row) (others : WholeRows rest) :
      WholeRows (row ++ '\n' :: rest)

theorem WholeRows.cons {text : List Char} (whole : WholeRows text) (nonempty : text ≠ [])
    (glyph : Char) : WholeRows (glyph :: text) := by
  cases whole with
  | nothing => contradiction
  | @row row rest oneRow others =>
      by_cases ends : glyph = '\n'
      · subst ends
        exact @WholeRows.row [] _ List.not_mem_nil (.row oneRow others)
      · exact @WholeRows.row (glyph :: row) _ (by simp [Ne.symm ends, oneRow]) others

/-- Every text is whole rows and the beginning of one more. -/
theorem exists_wholeRows (text : List Char) :
    ∃ lead front, text = lead ++ front ∧ WholeRows lead ∧ '\n' ∉ front := by
  induction text with
  | nil => exact ⟨[], [], rfl, .nothing, List.not_mem_nil⟩
  | cons glyph text inductionHypothesis =>
      obtain ⟨lead, front, rfl, whole, oneRow⟩ := inductionHypothesis
      by_cases first : lead = []
      · subst first
        by_cases ends : glyph = '\n'
        · subst ends
          exact ⟨['\n'], front, rfl, @WholeRows.row [] _ List.not_mem_nil .nothing, oneRow⟩
        · exact ⟨[], glyph :: front, rfl, .nothing, by simp [Ne.symm ends, oneRow]⟩
      · exact ⟨glyph :: lead, front, rfl, whole.cons first glyph, oneRow⟩

theorem linesFrom_append {row : List Char} (oneRow : '\n' ∉ row) (current rest : List Char) :
    linesFrom current (row ++ rest) = linesFrom (row.reverse ++ current) rest := by
  induction row generalizing current with
  | nil => rfl
  | cons glyph row inductionHypothesis =>
      simp only [List.mem_cons, not_or] at oneRow
      simp [linesFrom, Ne.symm oneRow.1, inductionHypothesis oneRow.2]

theorem lines_row {row : List Char} (oneRow : '\n' ∉ row) (rest : List Char) :
    lines (row ++ '\n' :: rest) = dropReturn row :: lines rest := by
  simp [lines, linesFrom_append oneRow, linesFrom]

theorem lines_of_oneRow {row : List Char} (oneRow : '\n' ∉ row) (nonempty : row ≠ []) :
    lines row = [row] := by
  have whole := linesFrom_append oneRow [] []
  rw [List.append_nil, List.append_nil] at whole
  rw [lines, whole, linesFrom, if_neg (by simpa using nonempty), List.reverse_reverse]

/-- The rows behind whole rows do not depend on these. -/
theorem WholeRows.lines_append {lead : List Char} (whole : WholeRows lead) (rest : List Char) :
    lines (lead ++ rest) = lines lead ++ lines rest := by
  induction whole with
  | nothing => rfl
  | row oneRow _ inductionHypothesis =>
      rw [List.append_assoc, List.cons_append, lines_row oneRow, lines_row oneRow,
        inductionHypothesis, List.cons_append]

theorem WholeRows.length_lines {lead : List Char} (whole : WholeRows lead) :
    (lines lead).length = lead.count '\n' := by
  induction whole with
  | nothing => rfl
  | row oneRow _ inductionHypothesis =>
      rw [lines_row oneRow, List.length_cons, inductionHypothesis, List.count_append,
        List.count_eq_zero_of_not_mem oneRow, List.count_cons_self, Nat.zero_add]

/-! ## The characters of a row -/

theorem dropReturn_subset (row : List Char) : dropReturn row ⊆ row := by
  unfold dropReturn
  split
  · exact List.dropLast_subset row
  · exact List.Subset.refl row

/-- Only what stands behind a character other than a carriage return is dropped. -/
theorem dropReturn_keeps {glyph : Char} (noReturn : glyph ≠ '\r') (front more : List Char) :
    ∃ kept gone, more = kept ++ gone ∧
      dropReturn (front ++ glyph :: more) = front ++ glyph :: kept := by
  unfold dropReturn
  split
  · rename_i returns
    rcases List.eq_nil_or_concat more with rfl | ⟨kept, last, rfl⟩
    · simp [noReturn] at returns
    · refine ⟨kept, [last], List.concat_eq_append, ?_⟩
      rw [List.concat_eq_append, ← List.cons_append, ← List.append_assoc, List.dropLast_concat]
  · exact ⟨more, [], by simp, rfl⟩

theorem WholeRows.notMem_of_mem_lines {lead row : List Char} (whole : WholeRows lead)
    (member : row ∈ lines lead) : '\n' ∉ row := by
  induction whole with
  | nothing => simp [lines, linesFrom] at member
  | row oneRow _ inductionHypothesis =>
      rw [lines_row oneRow] at member
      rcases List.mem_cons.mp member with rfl | member
      · exact fun breaks => oneRow (dropReturn_subset _ breaks)
      · exact inductionHypothesis member

theorem notMem_of_mem_lines {text row : List Char} (member : row ∈ lines text) : '\n' ∉ row := by
  obtain ⟨lead, front, rfl, whole, oneRow⟩ := exists_wholeRows text
  rw [whole.lines_append] at member
  rcases List.mem_append.mp member with member | member
  · exact whole.notMem_of_mem_lines member
  · by_cases nonempty : front = []
    · simp [nonempty, lines, linesFrom] at member
    · rw [lines_of_oneRow oneRow nonempty] at member
      rwa [List.mem_singleton.mp member]

/-- The character of a text behind a place in it is shown in the row of this number, counted from
one. -/
inductive ShownIn (text : List Char) : Nat → List Char → Prop where
  | mk {lead front more behind : List Char} {glyph : Char} {others : List (List Char)}
      (whole : WholeRows lead) (split : text = lead ++ (front ++ glyph :: more) ++ behind)
      (rows : lines text = lines lead ++ (front ++ glyph :: more) :: others) :
      ShownIn text ((lines lead).length + 1) (lead ++ front)

theorem ShownIn.le_length {text place : List Char} {number : Nat}
    (shown : ShownIn text number place) : number ≤ (lines text).length := by
  obtain ⟨_, _, rows⟩ := shown
  rw [rows, List.length_append, List.length_cons]
  omega

theorem shownIn_row {front : List Char} {glyph : Char} (oneRow : '\n' ∉ front)
    (noFeed : glyph ≠ '\n') (noReturn : glyph ≠ '\r') (after : List Char) :
    ∃ more behind others, front ++ glyph :: after = front ++ glyph :: more ++ behind ∧
      lines (front ++ glyph :: after) = (front ++ glyph :: more) :: others := by
  by_cases ends : '\n' ∈ after
  · obtain ⟨row, rest, rfl, openRow⟩ := List.eq_append_cons_of_mem ends
    obtain ⟨kept, gone, rfl, kept_eq⟩ := dropReturn_keeps noReturn front row
    have noBreak : '\n' ∉ front ++ glyph :: (kept ++ gone) := by
      simpa [oneRow, Ne.symm noFeed] using openRow
    refine ⟨kept, gone ++ '\n' :: rest, lines rest, by simp, ?_⟩
    rw [← kept_eq, ← lines_row noBreak]
    simp
  · have noBreak : '\n' ∉ front ++ glyph :: after := by simp [oneRow, Ne.symm noFeed, ends]
    exact ⟨after, [], [], by simp, lines_of_oneRow noBreak (by simp)⟩

/-- A character that is neither a line feed nor a carriage return is shown in one row, and the line
feeds in front of it number that row. -/
theorem shownIn_iff {before after : List Char} {glyph : Char} (noFeed : glyph ≠ '\n')
    (noReturn : glyph ≠ '\r') {number : Nat} :
    ShownIn (before ++ glyph :: after) number before ↔ number = before.count '\n' + 1 := by
  constructor
  · intro shown
    obtain ⟨text, same⟩ : ∃ text, text = before ++ glyph :: after := ⟨_, rfl⟩
    rw [← same] at shown
    obtain @⟨lead, front, more, behind, other, others, whole, -, rows⟩ := shown
    have oneRow : '\n' ∉ front ++ other :: more := notMem_of_mem_lines (by rw [rows]; simp)
    have openRow : '\n' ∉ front := fun breaks => oneRow (List.mem_append_left _ breaks)
    rw [whole.length_lines, List.count_append, List.count_eq_zero_of_not_mem openRow, Nat.add_zero]
  · rintro rfl
    obtain ⟨lead, front, rfl, whole, oneRow⟩ := exists_wholeRows before
    obtain ⟨more, behind, others, split, row⟩ := shownIn_row oneRow noFeed noReturn after
    rw [List.count_append, List.count_eq_zero_of_not_mem oneRow, Nat.add_zero,
      ← whole.length_lines, List.append_assoc]
    refine @ShownIn.mk _ lead front more behind glyph others whole ?_ ?_
    · rw [split, List.append_assoc, List.append_assoc, List.append_assoc]
    · rw [whole.lines_append, row]

end TapeMachine.Text
