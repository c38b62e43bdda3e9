import Mathlib.Tactic.SplitIfs
import TapeMachine.Json.Reader
import TapeMachine.Proofs.Text.Decimal

/-!
Contract: a JSON value is read back from its compact text.

Owns: the values whose text tells all of them; the reading of their strings, numbers, lists and
members with more text behind; the reading of a whole text; and that compact text is one line.
-/

namespace TapeMachine.Json

/-! ## Values and their text -/

/-- A value whose text tells all of it: numbers are naturals, strings and names are texts. -/
inductive Plain : Json → Prop where
  | null : Plain .null
  | boolean (value : Bool) : Plain (.boolean value)
  | natural (value : Nat) : Plain (.natural value)
  | string (value : String) : Plain (.ofString value)
  | array {elements : List Json} (plain : ∀ element ∈ elements, Plain element) :
      Plain (.array elements)
  | object {members : List (Option String × Json)}
      (named : ∀ entry ∈ members, entry.1.isSome = true)
      (plain : ∀ entry ∈ members, Plain entry.2) : Plain (.object members)

def memberText (entry : Option String × Json) : List Char :=
  quoted (entry.1.getD "").toList ++ ':' :: entry.2.text

/-- Parts with a comma in front of each, and the closing mark. -/
def othersText {α : Type} (render : α → List Char) (closing : Char) (others : List α) : List Char :=
  others.flatMap (fun next => ',' :: render next) ++ [closing]

/-- Parts with commas between them, and the closing mark. -/
def listText {α : Type} (render : α → List Char) (closing : Char) : List α → List Char
  | [] => [closing]
  | first :: others => render first ++ othersText render closing others

theorem elementsText_eq (others : List Json) : elementsText others = othersText text ']' others := by
  induction others with
  | nil => rfl
  | cons next others inductionHypothesis =>
      rw [elementsText, inductionHypothesis]
      simp [othersText]

theorem membersText_eq (others : List (Option String × Json)) :
    membersText others = othersText memberText '\x7d' others := by
  induction others with
  | nil => rfl
  | cons next others inductionHypothesis =>
      rw [membersText, inductionHypothesis]
      simp [othersText, memberText]

theorem text_array (elements : List Json) :
    (array elements).text = '[' :: listText text ']' elements := by
  cases elements with
  | nil => rw [text, listText]
  | cons first others => rw [text, elementsText_eq, listText]

theorem text_object (members : List (Option String × Json)) :
    (object members).text = '\x7b' :: listText memberText '\x7d' members := by
  cases members with
  | nil => rw [text, listText]
  | cons first others =>
      rw [text, membersText_eq, listText]
      simp [memberText]

section Lists

variable {α : Type} {render : α → List Char} {closing : Char}

theorem length_lt_othersText {next : α} {others : List α} (member : next ∈ others) :
    (render next).length < (othersText render closing others).length := by
  obtain ⟨before, after, rfl⟩ := List.append_of_mem member
  simp only [othersText, List.flatMap_append, List.flatMap_cons, List.length_append,
    List.length_cons]
  omega

theorem length_lt_listText {next : α} {list : List α} (member : next ∈ list) :
    (render next).length < (listText render closing list).length := by
  cases list with
  | nil => contradiction
  | cons first others =>
      rw [listText, List.length_append]
      rcases List.mem_cons.mp member with rfl | later
      · simp [othersText]
      · have shorter := @length_lt_othersText α render closing _ _ later
        omega

theorem length_le_listText (list : List α) : list.length ≤ (listText render closing list).length := by
  cases list with
  | nil => exact Nat.zero_le _
  | cons first others =>
      have commas : others.length ≤ (others.flatMap fun next => ',' :: render next).length := by
        induction others with
        | nil => exact Nat.le_refl _
        | cons next others inductionHypothesis =>
            rw [List.flatMap_cons, List.length_append, List.length_cons, List.length_cons]
            omega
      simp only [listText, othersText, List.length_append, List.length_cons, List.length_nil]
      omega

end Lists

/-! ## White space -/

theorem skipSpace_cons {first : Char} (visible : isSpace first = false) (rest : List Char) :
    skipSpace (first :: rest) = first :: rest :=
  List.dropWhile_cons_of_neg (by simp [visible])

theorem takeMark_cons {mark : Char} (visible : isSpace mark = false) (rest : List Char) :
    takeMark mark (mark :: rest) = some rest := by
  simp [takeMark, skipSpace_cons visible, takeText]

theorem takeMark_of_ne {mark first : Char} (visible : isSpace first = false)
    (different : first ≠ mark) (rest : List Char) : takeMark mark (first :: rest) = none := by
  simp [takeMark, skipSpace_cons visible, takeText, different]

/-! ## Strings -/

theorem hexValue?_hexDigit : ∀ value < 16, hexValue? (hexDigit value) = some value := by
  decide

theorem unitOf?_of_control {code : Nat} (control : code < 0x20) :
    unitOf? '0' '0' (hexDigit (code / 16)) (hexDigit (code % 16)) = some code := by
  have zero : hexValue? '0' = some 0 := by decide
  have high := hexValue?_hexDigit (code / 16) (by omega)
  have low := hexValue?_hexDigit (code % 16) (Nat.mod_lt _ (by decide))
  simp only [unitOf?, zero, high, low, Option.bind_eq_bind, Option.bind_some, Option.pure_def,
    Option.some.injEq]
  omega

/-- A piece stands for a character whatever pieces follow it. -/
def Piece.Means (piece : Piece) (glyph : Char) : Prop :=
  ∀ rest, textOf? (piece :: rest) = (textOf? rest).map (glyph :: ·)

theorem means_glyph (glyph : Char) : (Piece.glyph glyph).Means glyph := by
  intro rest
  rw [textOf?]

/-- A unit that is no surrogate does not look at what follows it. -/
theorem means_unit {glyph : Char} (control : glyph.toNat < 0x20) :
    (Piece.unit glyph.toNat).Means glyph := by
  have high : isHighSurrogate glyph.toNat = false := by
    simp only [isHighSurrogate, Bool.and_eq_false_iff, decide_eq_false_iff_not]
    omega
  have low : isLowSurrogate glyph.toNat = false := by
    simp only [isLowSurrogate, Bool.and_eq_false_iff, decide_eq_false_iff_not]
    omega
  intro rest
  cases rest with
  | nil => simp [textOf?, high, low, Char.ofNat_toNat]
  | cons next others => cases next <;> simp [textOf?, high, low, Char.ofNat_toNat]

/-- A character is written with a letter of its own, with its code, or as itself. -/
inductive Escapes (glyph : Char) : List Char → Prop where
  | letter {letter : Char} (printable : 0x20 ≤ letter.toNat) (noUnit : letter ≠ 'u')
      (names : shortEscape? letter = some glyph) : Escapes glyph ['\\', letter]
  | code (control : glyph.toNat < 0x20) :
      Escapes glyph
        ['\\', 'u', '0', '0', hexDigit (glyph.toNat / 16), hexDigit (glyph.toNat % 16)]
  | itself (printable : 0x20 ≤ glyph.toNat) (noQuote : glyph ≠ '"') (noSlash : glyph ≠ '\\') :
      Escapes glyph [glyph]

theorem escapes_escape (glyph : Char) : Escapes glyph (escape glyph) := by
  unfold escape
  split_ifs with quote slash backspace feed line ret tab control
  case pos => exact .letter (by decide) (by decide) (by subst quote; rfl)
  case pos => exact .letter (by decide) (by decide) (by subst slash; rfl)
  case pos => exact .letter (by decide) (by decide) (by subst backspace; rfl)
  case pos => exact .letter (by decide) (by decide) (by subst feed; rfl)
  case pos => exact .letter (by decide) (by decide) (by subst line; rfl)
  case pos => exact .letter (by decide) (by decide) (by subst ret; rfl)
  case pos => exact .letter (by decide) (by decide) (by subst tab; rfl)
  case pos => exact .code control
  case neg => exact .itself (Nat.le_of_not_lt control) quote slash

/-- A written character is taken as one piece, which stands for it. -/
theorem takePieces_escape (glyph : Char) (text : List Char) :
    ∃ piece : Piece, piece.Means glyph ∧
      takePieces (escape glyph ++ text) =
        (takePieces text).map fun taken => (piece :: taken.1, taken.2) := by
  generalize written : escape glyph = spelled
  have escapes := written ▸ escapes_escape glyph
  cases escapes with
  | @letter letter _ noUnit names =>
      refine ⟨.glyph glyph, means_glyph glyph, ?_⟩
      rw [List.cons_append, List.cons_append, List.nil_append, takePieces, names]
      intro first second third fourth rest unit
      exact absurd unit noUnit
  | code control =>
      refine ⟨.unit glyph.toNat, means_unit control, ?_⟩
      simp only [List.cons_append, List.nil_append]
      rw [takePieces, unitOf?_of_control control]
  | itself printable noQuote noSlash =>
      refine ⟨.glyph glyph, means_glyph glyph, ?_⟩
      rw [List.cons_append, List.nil_append, takePieces]
      · simp [Nat.not_lt.mpr printable, noSlash]
      all_goals simp [noQuote, noSlash]

theorem takePieces_flatMap (value rest : List Char) :
    ∃ pieces, takePieces (value.flatMap escape ++ '"' :: rest) = some (pieces, rest) ∧
      textOf? pieces = some value := by
  induction value with
  | nil => exact ⟨[], rfl, rfl⟩
  | cons glyph value inductionHypothesis =>
      obtain ⟨pieces, taken, means⟩ := inductionHypothesis
      obtain ⟨piece, meansGlyph, first⟩ :=
        takePieces_escape glyph (value.flatMap escape ++ '"' :: rest)
      refine ⟨piece :: pieces, ?_, ?_⟩
      · rw [List.flatMap_cons, List.append_assoc, first, taken, Option.map_some]
      · rw [meansGlyph, means, Option.map_some]

theorem takeString_quoted (value : String) (rest : List Char) :
    takeString (quoted value.toList ++ rest) = some (some value, rest) := by
  obtain ⟨pieces, taken, means⟩ := takePieces_flatMap value.toList rest
  have opened : skipSpace (quoted value.toList ++ rest) =
      '"' :: (value.toList.flatMap escape ++ '"' :: rest) := by
    rw [quoted, List.cons_append, skipSpace_cons (by decide), List.append_assoc,
      List.singleton_append]
  simp [takeString, opened, taken, means]

/-! ## Numbers -/

/-- What can stand behind a value: nothing, a comma or a closing mark. -/
def Closes (rest : List Char) : Prop :=
  ∀ glyph ∈ rest.head?, glyph = ',' ∨ glyph = ']' ∨ glyph = '\x7d'

theorem closes_nil : Closes [] := by
  simp [Closes]

theorem closes_othersText {α : Type} (render : α → List Char) {closing : Char}
    (shuts : closing = ']' ∨ closing = '\x7d') (others : List α) (rest : List Char) :
    Closes (othersText render closing others ++ rest) := by
  cases others with
  | nil => simpa [Closes, othersText] using .inr shuts
  | cons next others => simp [Closes, othersText]

theorem takeDigits_append {digits rest : List Char} (nonempty : digits ≠ [])
    (all : ∀ glyph ∈ digits, glyph.isDigit = true) (closes : Closes rest) :
    takeDigits (digits ++ rest) = some (digits, rest) := by
  have stops : rest.takeWhile Char.isDigit = [] ∧ rest.dropWhile Char.isDigit = rest := by
    cases rest with
    | nil => exact ⟨rfl, rfl⟩
    | cons glyph rest =>
        have noDigit : glyph.isDigit = false := by
          rcases closes glyph rfl with rfl | rfl | rfl <;> rfl
        simp [noDigit]
  simp [takeDigits, List.takeWhile_append_of_pos all, List.dropWhile_append_of_pos all, stops,
    nonempty]

theorem takeFraction_of_closes {rest : List Char} (closes : Closes rest) :
    takeFraction rest = some ([], rest) := by
  cases rest with
  | nil => rfl
  | cons glyph rest => rcases closes glyph rfl with rfl | rfl | rfl <;> rfl

theorem takeExponent_of_closes {rest : List Char} (closes : Closes rest) :
    takeExponent rest = some ([], rest) := by
  cases rest with
  | nil => rfl
  | cons glyph rest => rcases closes glyph rfl with rfl | rfl | rfl <;> rfl

theorem takeWhole_decimal (value : Nat) {rest : List Char} (closes : Closes rest) :
    takeWhole (Text.decimal value ++ rest) = some (Text.decimal value, rest) := by
  rcases Nat.eq_zero_or_pos value with rfl | positive
  · have zero : Text.decimal 0 = ['0'] := by decide +kernel
    rw [zero]
    cases rest with
    | nil => rfl
    | cons glyph rest => rcases closes glyph rfl with rfl | rfl | rfl <;> rfl
  · obtain ⟨first, others, same, nonzero⟩ := Text.decimal_of_pos positive
    rw [← takeDigits_append (Text.decimal_ne_nil value) (Text.isDigit_of_mem_decimal value) closes,
      same, List.cons_append, takeWhole]
    intro other zero
    exact absurd (List.cons.inj zero).1 nonzero

theorem takeNumber_decimal (value : Nat) {rest : List Char} (closes : Closes rest) :
    takeNumber (Text.decimal value ++ rest) = some (Text.decimal value, rest) := by
  have whole : takeUnsigned (Text.decimal value ++ rest) = some (Text.decimal value, rest) := by
    simp [takeUnsigned, takeWhole_decimal value closes, takeFraction_of_closes closes,
      takeExponent_of_closes closes]
  rw [← whole]
  obtain ⟨first, others, same⟩ := List.exists_cons_of_ne_nil (Text.decimal_ne_nil value)
  have isDigit := Text.isDigit_of_mem_decimal value first (by simp [same])
  rw [same, List.cons_append, takeNumber]
  intro other dash
  rw [(List.cons.inj dash).1] at isDigit
  contradiction

/-! ## Lists -/

section Parts

variable {α : Type} {render : α → List Char} {closing : Char}
  {part : List Char → Option (α × List Char)}

/-- A part is read back from its text in front of a text that closes it. -/
def Reads (part : List Char → Option (α × List Char)) (render : α → List Char) (value : α) : Prop :=
  ∀ rest, Closes rest → part (render value ++ rest) = some (value, rest)

/-- A text that does not look like white space or like the end of a list. -/
def Opens (text : List Char) : Prop :=
  ∃ first others, text = first :: others ∧ isSpace first = false ∧ first ≠ ']' ∧ first ≠ '\x7d'

theorem takeOthers_othersText (shuts : closing = ']' ∨ closing = '\x7d') {others : List α}
    (reads : ∀ next ∈ others, Reads part render next) {limit : Nat} (enough : others.length < limit)
    (rest : List Char) :
    takeOthers part closing limit (othersText render closing others ++ rest) =
      some (others, rest) := by
  induction others generalizing limit with
  | nil =>
      obtain ⟨limit, rfl⟩ := Nat.exists_eq_add_of_lt enough
      rcases shuts with rfl | rfl <;> simp [othersText, takeOthers, skipSpace, isSpace]
  | cons next others inductionHypothesis =>
      obtain ⟨limit, rfl⟩ : ∃ less, limit = less + 1 := ⟨limit - 1, by omega⟩
      have first := reads next List.mem_cons_self _ (closes_othersText render shuts others rest)
      have later := inductionHypothesis
        (fun other member => reads other (List.mem_cons_of_mem _ member))
        (Nat.lt_of_succ_lt_succ enough)
      have split : othersText render closing (next :: others) ++ rest =
          ',' :: (render next ++ (othersText render closing others ++ rest)) := by
        simp [othersText]
      rw [split, takeOthers, skipSpace_cons (by decide)]
      simp [first, later]

theorem takeList_listText (shuts : closing = ']' ∨ closing = '\x7d') {list : List α}
    (opens : ∀ next ∈ list, Opens (render next)) (reads : ∀ next ∈ list, Reads part render next)
    {limit : Nat} (enough : list.length ≤ limit) (rest : List Char) :
    takeList part closing limit (listText render closing list ++ rest) = some (list, rest) := by
  have visible : isSpace closing = false := by
    rcases shuts with rfl | rfl <;> rfl
  cases list with
  | nil => rw [listText, List.singleton_append, takeList, takeMark_cons visible]
  | cons first others =>
      have goesOn : takeMark closing (listText render closing (first :: others) ++ rest) = none := by
        obtain ⟨glyph, more, begins, shown, noBracket, noBrace⟩ := opens first List.mem_cons_self
        rw [listText, begins]
        refine takeMark_of_ne shown ?_ _
        rcases shuts with rfl | rfl
        · exact noBracket
        · exact noBrace
      have head := reads first List.mem_cons_self _ (closes_othersText render shuts others rest)
      have tail := takeOthers_othersText shuts
        (fun other member => reads other (List.mem_cons_of_mem _ member)) enough rest
      rw [takeList, goesOn]
      simp only [listText, List.append_assoc, Option.bind_eq_bind, head, Option.bind_some, tail,
        Option.pure_def]

end Parts

/-! ## Values -/

theorem opens_quoted (value rest : List Char) : Opens (quoted value ++ rest) :=
  ⟨'"', value.flatMap escape ++ ['"'] ++ rest, rfl, by decide, by decide, by decide⟩

theorem opens_decimal (value : Nat) : Opens (Text.decimal value) := by
  obtain ⟨first, others, same⟩ := List.exists_cons_of_ne_nil (Text.decimal_ne_nil value)
  have isDigit := Text.isDigit_of_mem_decimal value first (by simp [same])
  refine ⟨first, others, same, Bool.eq_false_iff.mpr ?_, ?_, ?_⟩
  · intro blank
    simp only [isSpace, Bool.or_eq_true, decide_eq_true_eq] at blank
    rcases blank with ((rfl | rfl) | rfl) | rfl <;> contradiction
  · rintro rfl
    contradiction
  · rintro rfl
    contradiction

theorem Plain.opens {json : Json} (plain : json.Plain) : Opens json.text := by
  cases plain with
  | null => exact ⟨'n', _, rfl, by decide, by decide, by decide⟩
  | boolean value =>
      cases value with
      | true => exact ⟨'t', _, rfl, by decide, by decide, by decide⟩
      | false => exact ⟨'f', _, rfl, by decide, by decide, by decide⟩
  | natural value =>
      rw [Json.natural, text]
      exact opens_decimal value
  | string value =>
      rw [Json.ofString, text, ← List.append_nil (quoted _)]
      exact opens_quoted _ []
  | array _ => exact ⟨'[', _, text_array _, by decide, by decide, by decide⟩
  | object _ _ => exact ⟨'\x7b', _, text_object _, by decide, by decide, by decide⟩

theorem reads_member {value : List Char → Option (Json × List Char)}
    {entry : Option String × Json} (named : entry.1.isSome = true)
    (reads : Reads value text entry.2) : Reads (takeMember value) memberText entry := by
  obtain ⟨name, found⟩ := entry
  obtain ⟨name, rfl⟩ := Option.isSome_iff_exists.mp named
  intro rest closes
  have written : memberText (some name, found) ++ rest =
      quoted name.toList ++ ':' :: (found.text ++ rest) := by
    simp [memberText]
  rw [written, takeMember]
  have colon := takeMark_cons (by decide : isSpace ':' = false) (found.text ++ rest)
  simp [takeString_quoted, colon, reads rest closes]

section Shapes

variable (limit levels : Nat)

theorem reads_null : Reads (takeValue limit (levels + 1)) text .null := by
  intro rest _
  simp [takeValue, text, skipSpace, isSpace, takeText]

theorem reads_boolean (value : Bool) :
    Reads (takeValue limit (levels + 1)) text (.boolean value) := by
  intro rest _
  cases value with
  | true => simp [takeValue, text, skipSpace, isSpace, takeText]
  | false => simp [takeValue, text, skipSpace, isSpace, takeText]

theorem reads_natural (value : Nat) :
    Reads (takeValue limit (levels + 1)) text (.natural value) := by
  intro rest closes
  obtain ⟨first, others, same, visible, -⟩ := opens_decimal value
  have taken := takeNumber_decimal value closes
  have isDigit := Text.isDigit_of_mem_decimal value first (by simp [same])
  have otherwise (mark : Char) (noDigit : mark.isDigit = false) : first ≠ mark := by
    rintro rfl
    simp [noDigit] at isDigit
  rw [natural, text, same, List.cons_append, takeValue, skipSpace_cons visible]
  rw [same, List.cons_append] at taken
  simp [otherwise, taken]

theorem reads_string (value : String) :
    Reads (takeValue limit (levels + 1)) text (.ofString value) := by
  intro rest _
  have taken := takeString_quoted value rest
  rw [ofString, text, Option.getD_some]
  rw [quoted, List.cons_append] at taken ⊢
  rw [takeValue, skipSpace_cons (by decide)]
  simpa using taken

variable {limit levels}

theorem reads_array {elements : List Json} (opens : ∀ element ∈ elements, Opens element.text)
    (reads : ∀ element ∈ elements, Reads (takeValue limit levels) text element)
    (enough : elements.length ≤ limit) :
    Reads (takeValue limit (levels + 1)) text (.array elements) := by
  intro rest _
  have taken := takeList_listText (.inl rfl) opens reads enough rest
  rw [text_array, List.cons_append, takeValue, skipSpace_cons (by decide)]
  simp [taken]

theorem reads_object {members : List (Option String × Json)}
    (named : ∀ entry ∈ members, entry.1.isSome = true)
    (reads : ∀ entry ∈ members, Reads (takeValue limit levels) text entry.2)
    (enough : members.length ≤ limit) :
    Reads (takeValue limit (levels + 1)) text (.object members) := by
  intro rest _
  have opens (entry : Option String × Json) : Opens (memberText entry) := opens_quoted _ _
  have taken := takeList_listText (.inr rfl) (fun entry _ => opens entry)
    (fun entry member => reads_member (named entry member) (reads entry member)) enough rest
  rw [text_object, List.cons_append, takeValue, skipSpace_cons (by decide)]
  simp [taken]

end Shapes

/-- A value is read back from its text if the limits are as large as the text is long. -/
theorem Plain.reads {json : Json} (plain : json.Plain) {limit levels : Nat}
    (wide : json.text.length ≤ limit) (deep : json.text.length ≤ levels + 1) :
    Reads (takeValue limit (levels + 1)) text json := by
  induction plain generalizing levels with
  | null => exact reads_null limit levels
  | boolean value => exact reads_boolean limit levels value
  | natural value => exact reads_natural limit levels value
  | string value => exact reads_string limit levels value
  | @array elements plain inductionHypothesis =>
      rw [text_array, List.length_cons] at wide deep
      have enough : elements.length ≤ (listText text ']' elements).length :=
        length_le_listText elements
      refine reads_array (fun element member => (plain element member).opens) ?_ (by omega)
      intro element member
      have shorter : element.text.length < (listText text ']' elements).length :=
        length_lt_listText member
      obtain ⟨less, rfl⟩ : ∃ less, levels = less + 1 := ⟨levels - 1, by omega⟩
      exact inductionHypothesis element member (by omega) (by omega)
  | @object members named plain inductionHypothesis =>
      rw [text_object, List.length_cons] at wide deep
      have enough : members.length ≤ (listText memberText '\x7d' members).length :=
        length_le_listText members
      refine reads_object named ?_ (by omega)
      intro entry member
      have shorter : (memberText entry).length < (listText memberText '\x7d' members).length :=
        length_lt_listText member
      have inside : entry.2.text.length < (memberText entry).length := by
        simp only [memberText, List.length_append, List.length_cons]
        omega
      obtain ⟨less, rfl⟩ : ∃ less, levels = less + 1 := ⟨levels - 1, by omega⟩
      exact inductionHypothesis entry member (by omega) (by omega)

theorem parse?_text {json : Json} (plain : json.Plain) : parse? json.text = some json := by
  have taken := plain.reads (Nat.le_succ _) (Nat.le_succ _) [] closes_nil
  rw [List.append_nil] at taken
  rw [parse?, taken]
  simp [skipSpace]

/-! ## One line -/

/-- A text without control characters. -/
def Printable (text : List Char) : Prop :=
  ∀ glyph ∈ text, 0x20 ≤ glyph.toNat

theorem Printable.append {first second : List Char} (printable : Printable first)
    (printableSecond : Printable second) : Printable (first ++ second) := by
  intro glyph member
  rcases List.mem_append.mp member with member | member
  · exact printable glyph member
  · exact printableSecond glyph member

theorem Printable.cons {first : Char} {rest : List Char} (printable : Printable rest)
    (visible : 0x20 ≤ first.toNat) : Printable (first :: rest) := by
  intro glyph member
  rcases List.mem_cons.mp member with rfl | member
  · exact visible
  · exact printable glyph member

theorem printable_hexDigit : ∀ value < 16, 0x20 ≤ (hexDigit value).toNat := by
  decide

theorem printable_escape (glyph : Char) : Printable (escape glyph) := by
  generalize written : escape glyph = spelled
  have escapes := written ▸ escapes_escape glyph
  cases escapes with
  | letter printable => simpa [Printable] using printable
  | code control =>
      have high := printable_hexDigit (glyph.toNat / 16) (by omega)
      have low := printable_hexDigit (glyph.toNat % 16) (Nat.mod_lt _ (by decide))
      simpa [Printable] using ⟨high, low⟩
  | itself printable => simpa [Printable] using printable

theorem printable_quoted (value : List Char) : Printable (quoted value) := by
  have inner : Printable (value.flatMap escape) := by
    intro glyph member
    obtain ⟨source, -, written⟩ := List.mem_flatMap.mp member
    exact printable_escape source glyph written
  exact (inner.append (by simp [Printable])).cons (by decide)

theorem printable_listText {α : Type} {render : α → List Char} {closing : Char} {list : List α}
    (visible : 0x20 ≤ closing.toNat) (printable : ∀ next ∈ list, Printable (render next)) :
    Printable (listText render closing list) := by
  cases list with
  | nil => simpa [listText, Printable] using visible
  | cons first others =>
      refine (printable first List.mem_cons_self).append (Printable.append ?_ ?_)
      · intro glyph member
        obtain ⟨next, present, written⟩ := List.mem_flatMap.mp member
        exact (printable next (List.mem_cons_of_mem _ present)).cons (by decide) glyph written
      · simpa [Printable] using visible

theorem Plain.printable {json : Json} (plain : json.Plain) : Printable json.text := by
  induction plain with
  | null => simp [Printable, text]
  | boolean value => cases value <;> simp [Printable, text]
  | natural value =>
      rw [Json.natural, text]
      intro glyph member
      have isDigit := Text.isDigit_of_mem_decimal value glyph member
      simp only [Char.isDigit, Bool.and_eq_true, decide_eq_true_eq] at isDigit
      exact Nat.le_trans (by decide) isDigit.1
  | string value =>
      rw [Json.ofString, text]
      exact printable_quoted _
  | array plain inductionHypothesis =>
      rw [text_array]
      exact (printable_listText (by decide) inductionHypothesis).cons (by decide)
  | object named plain inductionHypothesis =>
      rw [text_object]
      refine (printable_listText (by decide) ?_).cons (by decide)
      intro entry member
      exact (printable_quoted _).append ((inductionHypothesis entry member).cons (by decide))

end TapeMachine.Json
