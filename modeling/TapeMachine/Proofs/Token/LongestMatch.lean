import TapeMachine.Proofs.Token.Recognition

/-!
Contract: tokens by their texts and by what follows them.

Owns: the texts that the kinds of tokens have, what a token must not be followed by, the texts that
no token begins, and the agreement of the choice of a kind with them.

Nothing here is said in the order in which kinds are tried: a token is complete if neither it nor a
longer spelling can go on, and at most one token stands complete in front of a text.
-/

namespace TapeMachine

/-! ## Spellings -/

theorem Kind.mem_fixed_iff {kind : Kind} {text : List Char} :
    (kind, text) ∈ Kind.fixed ↔ kind.spelling? = some text := by
  refine ⟨fun member => Kind.spelling_of_mem_fixed member, fun spelling => ?_⟩
  have listed : kind ∈ Kind.table := by
    cases kind with
    | symbol sign => cases sign <;> decide
    | keyword word => cases word <;> decide
    | _ => decide
  exact List.mem_filterMap.mpr ⟨kind, listed, by rw [spelling]; rfl⟩

/-- No two kinds have the same spelling. -/
theorem Kind.eq_of_spelling {kind other : Kind} {text : List Char}
    (spelling : kind.spelling? = some text) (same : other.spelling? = some text) :
    kind = other := by
  have distinct : ∀ first ∈ Kind.fixed, ∀ second ∈ Kind.fixed,
      first.2 = second.2 → first.1 = second.1 := by decide
  exact distinct _ (Kind.mem_fixed_iff.mpr spelling) _ (Kind.mem_fixed_iff.mpr same) rfl

/-! ## Complete tokens -/

namespace Kind

/-- The texts that the tokens of a kind have. A comment is no token. -/
def Spells : Kind → List Char → Prop
  | .symbol sign, text => text = [sign.glyph]
  | .keyword word, text => text = word.spelling.toList
  | .literal, text => ∃ glyph, text = ['\'', glyph, '\'']
  | .comment, _ => False
  | .identifier, text => ∃ first others, isIdentifierStart first = true ∧
      (∀ glyph ∈ others, isIdentifierPart glyph = true) ∧ text = first :: others
  | .integer, text => text ≠ [] ∧ ∀ glyph ∈ text, glyph.isDigit = true

/-- Whether all tokens of the kind are words. -/
def isWord : Kind → Bool
  | .keyword word => word.spelling.toList.all isIdentifierPart
  | .identifier => true
  | _ => false

/-- A token of a kind with some text is complete in front of what follows. -/
structure Complete (kind : Kind) (text rest : List Char) : Prop where
  /-- A word is not followed by another character of a word. -/
  word : kind.isWord = true → ∀ glyph, rest.head? = some glyph → isIdentifierPart glyph = false
  digits : kind = .integer → ∀ glyph, rest.head? = some glyph → glyph.isDigit = false
  /-- A fixed spelling is not the beginning of a longer one that stands there. -/
  longest : kind.spelling? = some text → ∀ (other : Kind) (longer : List Char),
    other.spelling? = some longer → text <+: longer → longer <+: text ++ rest → longer = text
  /-- An identifier is no keyword. -/
  distinct : kind = .identifier → ∀ word : Keyword, text ≠ word.spelling.toList

end Kind

/-- A text that no token begins, nor a blank or a comment. -/
structure Unmatched (content : List Char) : Prop where
  noBlank : ∀ glyph, content.head? = some glyph → Text.isBlank glyph = false
  noComment : content.head? ≠ some '#'
  noToken : ∀ (kind : Kind) (text : List Char), kind.Spells text → ¬ text <+: content

/-! ## The chosen token is complete -/

theorem spellingFront_append_iff {text rest : List Char} :
    spellingFront text (text ++ rest) = some text ↔
      (text.all isIdentifierPart = true →
        ∀ glyph, rest.head? = some glyph → isIdentifierPart glyph = false) := by
  have front : text.isPrefixOf (text ++ rest) = true :=
    List.isPrefixOf_iff_prefix.mpr (List.prefix_append text rest)
  unfold spellingFront
  rw [if_pos front, List.drop_left]
  cases rest with
  | nil => simp
  | cons glyph others =>
      by_cases word : text.all isIdentifierPart = true
      · by_cases joins : isIdentifierPart glyph = true <;> simp [word, joins]
      · simp [word]

theorem takeWhile_append_eq_iff {text rest : List Char} {passes : Char → Bool} :
    (text ++ rest).takeWhile passes = text ↔
      (∀ glyph ∈ text, passes glyph = true) ∧
        ∀ glyph, rest.head? = some glyph → passes glyph = false := by
  constructor
  · intro whole
    have all : ∀ glyph ∈ text, passes glyph = true := by
      rw [← whole]
      exact List.all_eq_true.mp List.all_takeWhile
    rw [List.takeWhile_append_of_pos all] at whole
    refine ⟨all, ?_⟩
    cases rest with
    | nil => simp
    | cons glyph others =>
        have none := List.append_cancel_left (whole.trans (List.append_nil text).symm)
        simpa [List.takeWhile_cons] using none
  · rintro ⟨all, stops⟩
    rw [List.takeWhile_append_of_pos all]
    cases rest with
    | nil => simp
    | cons glyph others => simp [stops glyph rfl]

theorem runFront_append_iff {first others : Char → Bool} {glyph : Char} {text rest : List Char} :
    runFront first others (glyph :: (text ++ rest)) = some (glyph :: text) ↔
      first glyph = true ∧ (∀ other ∈ text, others other = true) ∧
        ∀ stop, rest.head? = some stop → others stop = false := by
  rw [← takeWhile_append_eq_iff]
  by_cases begins : first glyph = true <;> simp [runFront, begins]

theorem Kind.spells_of_front {kind : Kind} {content text : List Char}
    (found : kind.front content = some text) (noComment : content.head? ≠ some '#') :
    kind.Spells text := by
  cases kind with
  | symbol sign => exact (spellingFront_eq_some found).1
  | keyword word => exact (spellingFront_eq_some found).1
  | literal => exact (literalFront_eq_some found).1
  | comment =>
      exact absurd (found.symm.trans (commentFront_eq_none_iff.mpr noComment))
        (Option.some_ne_none text)
  | identifier =>
      obtain ⟨⟨first, others, begins, all, rfl⟩, -⟩ := runFront_eq_some found
      exact ⟨first, others, begins, List.all_eq_true.mp all, rfl⟩
  | integer =>
      obtain ⟨⟨first, others, begins, all, rfl⟩, -⟩ := runFront_eq_some found
      exact ⟨by simp, by simpa using ⟨begins, List.all_eq_true.mp all⟩⟩

theorem Kind.spells_of_spelling {kind : Kind} {text : List Char}
    (spelling : kind.spelling? = some text) : kind.Spells text := by
  cases kind <;> simp_all [Kind.spelling?, Kind.Spells]

/-- Where a kind is chosen for its spelling, no longer spelling stands. -/
theorem longest_of_frontKind {kind : Kind} {text rest : List Char}
    (chosen : frontKind (text ++ rest) = some kind) (spelling : kind.spelling? = some text)
    {other : Kind} {longer : List Char} (spelled : other.spelling? = some longer)
    (begins : text <+: longer) (stands : longer <+: text ++ rest) : longer = text := by
  rcases Option.or_eq_some_iff.mp chosen with longest | ⟨-, varied⟩
  · obtain ⟨size, impossible | ⟨same, member, length, -⟩, -, bound⟩ := longestFront_longest longest
    · simp at impossible
    · obtain rfl := Option.some.inj ((Kind.mem_fixed_iff.mp member).symm.trans spelling)
      -- Only spellings that are no words extend another one, so no boundary is asked for.
      have noWord : ∀ first ∈ Kind.fixed, ∀ second ∈ Kind.fixed,
          first.2.isPrefixOf second.2 = true → first.2 ≠ second.2 →
            second.2.all isIdentifierPart = false := by decide
      by_cases equal : longer = same
      · exact equal
      · have unbounded := noWord _ member _ (Kind.mem_fixed_iff.mpr spelled)
          (List.isPrefixOf_iff_prefix.mpr begins) (Ne.symm equal)
        obtain ⟨behind, split⟩ := stands
        have front : other.front (same ++ rest) = some longer := by
          rw [Kind.front_of_spelling spelled, ← split, spellingFront_append_iff]
          simp [unbounded]
        have short := bound (other, longer) (Kind.mem_fixed_iff.mpr spelled) (by simp [front])
        exact (begins.eq_of_length_le (by simpa [length] using short)).symm
  · have member := List.mem_of_find?_eq_some varied
    simp only [Kind.varied, List.mem_cons, List.not_mem_nil, or_false] at member
    rcases member with rfl | rfl | rfl | rfl <;> simp [Kind.spelling?] at spelling

/-- A kind without a spelling is chosen only where no spelling stands. -/
theorem noSpelling_of_frontKind {kind : Kind} {content : List Char}
    (chosen : frontKind content = some kind) (free : kind.spelling? = none) {other : Kind}
    {text : List Char} (spelling : other.spelling? = some text) : other.front content = none := by
  rcases Option.or_eq_some_iff.mp chosen with longest | ⟨nothing, -⟩
  · obtain ⟨size, impossible | ⟨same, member, -, -⟩, -, -⟩ := longestFront_longest longest
    · simp at impossible
    · simp [Kind.mem_fixed_iff.mp member] at free
  · exact longestFront_eq_none nothing (other, text) (Kind.mem_fixed_iff.mpr spelling)

/-- The token in front of a text is complete. -/
theorem complete_of_frontKind {kind : Kind} {content text : List Char}
    (chosen : frontKind content = some kind) (found : kind.front content = some text) :
    ∃ rest, content = text ++ rest ∧ kind.Complete text rest := by
  obtain ⟨rest, rfl⟩ := (Kind.front_eq_some found).2
  have boundary : kind.isWord = true →
      ∀ glyph, rest.head? = some glyph → isIdentifierPart glyph = false := by
    intro word
    cases kind with
    | keyword keyword =>
        obtain ⟨rfl, -⟩ := spellingFront_eq_some found
        exact spellingFront_append_iff.mp found word
    | identifier =>
        obtain ⟨⟨first, others, -, -, rfl⟩, -⟩ := runFront_eq_some found
        exact (runFront_append_iff.mp found).2.2
    | _ => simp [Kind.isWord] at word
  refine ⟨rest, rfl, boundary, ?_, ?_, ?_⟩
  · rintro rfl
    obtain ⟨⟨first, others, -, -, rfl⟩, -⟩ := runFront_eq_some found
    exact (runFront_append_iff.mp found).2.2
  · intro spelling other longer spelled
    exact longest_of_frontKind chosen spelling spelled
  · rintro rfl word rfl
    have absent : Kind.front (.keyword word) (word.spelling.toList ++ rest) = none :=
      noSpelling_of_frontKind chosen rfl rfl
    have stands : spellingFront word.spelling.toList (word.spelling.toList ++ rest) =
        some word.spelling.toList := spellingFront_append_iff.mpr fun _ => boundary rfl
    exact Option.some_ne_none _ (stands.symm.trans absent)

theorem Keyword.begins_of_isWord (word : Keyword)
    (isWord : word.spelling.toList.all isIdentifierPart = true) :
    word.spelling.toList.head?.any isIdentifierStart = true := by
  cases word <;> first | rfl | exact absurd isWord (by decide)

/-- Where no kind is chosen, no token begins. -/
theorem noToken_of_frontKind {content : List Char} (nothing : frontKind content = none)
    {kind : Kind} {text : List Char} (spells : kind.Spells text) : ¬ text <+: content := by
  rintro ⟨rest, rfl⟩
  obtain ⟨noSpelling, noOther⟩ := Option.or_eq_none_iff.mp nothing
  have absent : ∀ other : Kind, other.front (text ++ rest) = none := by
    intro other
    cases spelling : other.spelling? with
    | some spelled =>
        exact longestFront_eq_none noSpelling (other, spelled) (Kind.mem_fixed_iff.mpr spelling)
    | none =>
        have varied : other ∈ Kind.varied := by
          cases other <;> simp_all [Kind.spelling?, Kind.varied]
        simpa using List.find?_eq_none.mp noOther other varied
  cases kind with
  | symbol sign =>
      obtain rfl : text = [sign.glyph] := spells
      have noWord : [sign.glyph].all isIdentifierPart = false := by cases sign <;> decide
      have stands : spellingFront [sign.glyph] ([sign.glyph] ++ rest) = some [sign.glyph] :=
        spellingFront_append_iff.mpr (by simp [noWord])
      exact Option.some_ne_none _ (stands.symm.trans (absent (.symbol sign)))
  | keyword word =>
      obtain rfl : text = word.spelling.toList := spells
      by_cases isWord : word.spelling.toList.all isIdentifierPart = true
      · -- Whatever follows the word, an identifier begins with it.
        have begins := word.begins_of_isWord isWord
        have none := absent .identifier
        cases spelled : word.spelling.toList with
        | nil => simp [spelled] at begins
        | cons first others =>
            rw [spelled] at begins
            simp_all [Kind.front, runFront]
      · have stands : spellingFront word.spelling.toList (word.spelling.toList ++ rest) =
            some word.spelling.toList := spellingFront_append_iff.mpr fun all => absurd all isWord
        exact Option.some_ne_none _ (stands.symm.trans (absent (.keyword word)))
  | literal =>
      obtain ⟨glyph, rfl⟩ := spells
      exact Option.some_ne_none _ ((absent .literal).symm.trans rfl).symm
  | comment => exact spells
  | identifier =>
      obtain ⟨first, others, begins, -, rfl⟩ := spells
      have none := absent .identifier
      simp [Kind.front, runFront, begins] at none
  | integer =>
      obtain ⟨nonempty, all⟩ := spells
      obtain ⟨first, others, rfl⟩ := List.exists_cons_of_ne_nil nonempty
      have none := absent .integer
      simp [Kind.front, runFront, all first (by simp)] at none

/-! ## A complete token is chosen -/

theorem isIdentifierPart_of_isDigit {glyph : Char} (digit : glyph.isDigit = true) :
    isIdentifierPart glyph = true := by
  simp [isIdentifierPart, Char.isAlphanum, digit]

theorem isIdentifierPart_of_isIdentifierStart {glyph : Char}
    (begins : isIdentifierStart glyph = true) : isIdentifierPart glyph = true := by
  simp only [isIdentifierStart, Bool.or_eq_true] at begins
  rcases begins with underscore | letter
  · simp [isIdentifierPart, underscore]
  · simp [isIdentifierPart, Char.isAlphanum, letter]

/-- The characters of identifiers and numbers begin neither trivia nor a literal, and a number is no
identifier. -/
theorem isolated_of_isIdentifierPart {glyph : Char} (part : isIdentifierPart glyph = true) :
    Text.isBlank glyph = false ∧ glyph ≠ '#' ∧ glyph ≠ '\'' ∧
      (glyph.isDigit = true → isIdentifierStart glyph = false) := by
  have all : ∀ code < 128, isIdentifierPart (Char.ofNat code) = true →
      Text.isBlank (Char.ofNat code) = false ∧ Char.ofNat code ≠ '#' ∧ Char.ofNat code ≠ '\'' ∧
        ((Char.ofNat code).isDigit = true → isIdentifierStart (Char.ofNat code) = false) := by
    decide +kernel
  have small : glyph.toNat < 128 := by
    delta isIdentifierPart Char.isAlphanum Char.isAlpha Char.isUpper Char.isLower Char.isDigit at part
    simp only [Bool.or_eq_true, Bool.and_eq_true, decide_eq_true_eq] at part
    rcases part with rfl | part
    · decide
    · simp only [ge_iff_le, UInt32.le_iff_toNat_le, Char.reduceVal, UInt32.reduceToNat] at part
      simp only [Char.toNat]
      omega
  have same := all glyph.toNat small
  rw [Char.ofNat_toNat] at same
  exact same part

/-- A token begins neither with a blank nor with a hash sign. -/
theorem Kind.begins_of_spells {kind : Kind} {text : List Char} (spells : kind.Spells text) :
    ∃ first others, text = first :: others ∧ Text.isBlank first = false ∧ first ≠ '#' := by
  cases kind with
  | symbol sign =>
      obtain rfl : text = [sign.glyph] := spells
      exact ⟨_, _, rfl, by cases sign <;> decide, by cases sign <;> decide⟩
  | keyword word =>
      obtain rfl : text = word.spelling.toList := spells
      cases word <;> exact ⟨_, _, rfl, by decide, by decide⟩
  | literal =>
      obtain ⟨glyph, rfl⟩ := spells
      exact ⟨_, _, rfl, by decide, by decide⟩
  | comment => exact spells.elim
  | identifier =>
      obtain ⟨first, others, begins, -, rfl⟩ := spells
      have isolated := isolated_of_isIdentifierPart (isIdentifierPart_of_isIdentifierStart begins)
      exact ⟨first, others, rfl, isolated.1, isolated.2.1⟩
  | integer =>
      obtain ⟨nonempty, all⟩ := spells
      obtain ⟨first, others, rfl⟩ := List.exists_cons_of_ne_nil nonempty
      have isolated :=
        isolated_of_isIdentifierPart (isIdentifierPart_of_isDigit (all first (by simp)))
      exact ⟨first, others, rfl, isolated.1, isolated.2.1⟩

/-- No spelling begins with a quote or a digit. -/
theorem noSpelling_of_head {glyph : Char} {rest : List Char}
    (head : glyph = '\'' ∨ glyph.isDigit = true) :
    longestFront (glyph :: rest) none Kind.fixed = none := by
  have heads : ∀ entry ∈ Kind.fixed,
      entry.2.head?.all (fun first => !(first = '\'' || first.isDigit)) = true := by decide
  have absent : ∀ entry ∈ Kind.fixed, entry.1.front (glyph :: rest) = none := by
    intro entry member
    have spelling := Kind.spelling_of_mem_fixed member
    obtain ⟨first, others, spelled, -⟩ := Kind.begins_of_spells (Kind.spells_of_spelling spelling)
    rw [Kind.front_of_spelling spelling, spelled]
    refine spellingFront_of_ne ?_
    rintro rfl
    have other := heads entry member
    simp only [spelled, List.head?_cons, Option.all_some, Bool.not_eq_true', Bool.or_eq_false_iff,
      decide_eq_false_iff_not] at other
    exact head.elim other.1 fun digit => by simp [other.2] at digit
  exact longestFront_of_none absent

/-- A complete identifier is no spelling, and none is a part of it. -/
theorem noSpelling_of_identifier {text rest : List Char} (spells : Kind.identifier.Spells text)
    (complete : Kind.identifier.Complete text rest) :
    longestFront (text ++ rest) none Kind.fixed = none := by
  obtain ⟨first, others, begins, all, rfl⟩ := spells
  have words : ∀ entry ∈ Kind.fixed, entry.2.head?.any isIdentifierStart = true →
      entry.2.all isIdentifierPart = true := by decide
  have run : (first :: others ++ rest).takeWhile isIdentifierPart = first :: others :=
    takeWhile_append_eq_iff.mpr
      ⟨by simpa using ⟨isIdentifierPart_of_isIdentifierStart begins, all⟩, complete.word rfl⟩
  have absent : ∀ entry ∈ Kind.fixed, entry.1.front (first :: others ++ rest) = none := by
    rintro ⟨kind, spelling⟩ member
    have spelled := Kind.mem_fixed_iff.mp member
    obtain ⟨head, tail, rfl, -⟩ := Kind.begins_of_spells (Kind.spells_of_spelling spelled)
    cases front : kind.front (first :: others ++ rest) with
    | none => rfl
    | some found =>
        rw [Kind.front_of_spelling spelled] at front
        obtain ⟨rfl, behind, split⟩ := spellingFront_eq_some front
        obtain rfl : head = first := by simpa using congrArg List.head? split
        have word := words _ member (by simpa using begins)
        -- The spelling and the identifier are the same run of characters.
        rw [← split, spellingFront_append_iff] at front
        have same := takeWhile_append_eq_iff.mpr ⟨List.all_eq_true.mp word, front word⟩
        rw [split, run] at same
        cases kind with
        | keyword keyword =>
            exact absurd (same.trans (Option.some.inj spelled).symm) (complete.distinct rfl keyword)
        | symbol sign =>
            obtain ⟨rfl, -⟩ := List.cons.inj (Option.some.inj spelled)
            exact absurd begins (by cases sign <;> decide)
        | _ => simp [Kind.spelling?] at spelled
  exact longestFront_of_none absent

/-- A complete token in front of a text is found there. -/
theorem front_of_complete {kind : Kind} {text rest : List Char} (spells : kind.Spells text)
    (complete : kind.Complete text rest) : kind.front (text ++ rest) = some text := by
  cases kind with
  | symbol sign =>
      obtain rfl : text = [sign.glyph] := spells
      exact spellingFront_append_iff.mpr fun word => absurd word (by cases sign <;> decide)
  | keyword word =>
      obtain rfl : text = word.spelling.toList := spells
      exact spellingFront_append_iff.mpr complete.word
  | literal =>
      obtain ⟨glyph, rfl⟩ := spells
      rfl
  | comment => exact spells.elim
  | identifier =>
      obtain ⟨first, others, begins, all, rfl⟩ := spells
      exact runFront_append_iff.mpr ⟨begins, all, complete.word rfl⟩
  | integer =>
      obtain ⟨nonempty, all⟩ := spells
      obtain ⟨first, others, rfl⟩ := List.exists_cons_of_ne_nil nonempty
      exact runFront_append_iff.mpr ⟨all first (by simp), fun other member =>
        all other (by simp [member]), complete.digits rfl⟩

/-- Where a complete token with a fixed spelling stands, its kind is chosen. -/
theorem frontKind_of_spelling {kind : Kind} {text rest : List Char}
    (spelling : kind.spelling? = some text) (complete : kind.Complete text rest) :
    frontKind (text ++ rest) = some kind := by
  have stands := front_of_complete (Kind.spells_of_spelling spelling) complete
  have member := Kind.mem_fixed_iff.mpr spelling
  cases chosen : longestFront (text ++ rest) none Kind.fixed with
  | none => simp [longestFront_eq_none chosen _ member] at stands
  | some other =>
      obtain ⟨size, impossible | ⟨longer, listed, length, inFront⟩, -, bound⟩ :=
        longestFront_longest chosen
      · simp at impossible
      · have spelled := Kind.mem_fixed_iff.mp listed
        obtain ⟨found, front⟩ := Option.isSome_iff_exists.mp inFront
        rw [Kind.front_of_spelling spelled] at front
        obtain ⟨rfl, within⟩ := spellingFront_eq_some front
        have long : text.length ≤ found.length := length ▸ bound _ member (by simp [stands])
        have begins := List.prefix_of_prefix_length_le (List.prefix_append text rest) within long
        obtain rfl := complete.longest spelling other found spelled begins within
        rw [Kind.eq_of_spelling spelled spelling] at chosen
        rw [frontKind, chosen]
        rfl

/-- Where a complete token stands, its kind is chosen. -/
theorem frontKind_of_complete {kind : Kind} {text rest : List Char} (spells : kind.Spells text)
    (complete : kind.Complete text rest) : frontKind (text ++ rest) = some kind := by
  cases kind with
  | symbol sign => exact frontKind_of_spelling (congrArg some spells.symm) complete
  | keyword word => exact frontKind_of_spelling (congrArg some spells.symm) complete
  | literal =>
      obtain ⟨glyph, rfl⟩ := spells
      rw [frontKind, List.cons_append, noSpelling_of_head (.inl rfl)]
      rfl
  | comment => exact spells.elim
  | identifier =>
      rw [frontKind, noSpelling_of_identifier spells complete]
      obtain ⟨first, others, begins, -, rfl⟩ := spells
      obtain ⟨-, noHash, noQuote, -⟩ :=
        isolated_of_isIdentifierPart (isIdentifierPart_of_isIdentifierStart begins)
      simp [Kind.varied, Kind.front, literalFront, commentFront, runFront, noHash, noQuote, begins]
  | integer =>
      obtain ⟨nonempty, all⟩ := spells
      obtain ⟨first, others, rfl⟩ := List.exists_cons_of_ne_nil nonempty
      have digit := all first (by simp)
      obtain ⟨-, noHash, noQuote, noName⟩ :=
        isolated_of_isIdentifierPart (isIdentifierPart_of_isDigit digit)
      rw [frontKind, List.cons_append, noSpelling_of_head (.inr digit)]
      simp [Kind.varied, Kind.front, literalFront, commentFront, runFront, noHash, noQuote,
        noName digit, digit]

theorem frontKind_of_unmatched {content : List Char} (unmatched : Unmatched content) :
    frontKind content = none := by
  cases chosen : frontKind content with
  | none => rfl
  | some kind =>
      obtain ⟨text, front⟩ := front_of_frontKind chosen
      exact absurd (Kind.front_eq_some front).2
        (unmatched.noToken kind text (Kind.spells_of_front front unmatched.noComment))

end TapeMachine
