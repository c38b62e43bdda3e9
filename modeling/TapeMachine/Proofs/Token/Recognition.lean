import TapeMachine.Proofs.Source.Content
import TapeMachine.Token.Scan

/-!
Contract: which token stands in front of a text.

Owns: for each kind the front of a text that is a token of the kind, the choice of the kind, the
length of blanks and comments, and the agreement of the scanning of a buffer with them.

All of these are functions of the text alone: what has been drawn from a stream, what was inserted
and the checkpoints that probing leaves behind have no influence.
-/

namespace TapeMachine

/-! ## Fronts of a text -/

/-- A spelling in front, with a word boundary behind it if it is made of word characters. -/
def spellingFront (text content : List Char) : Option (List Char) :=
  if text.isPrefixOf content then
    if text.all isIdentifierPart && (content.drop text.length).head?.any isIdentifierPart then none
    else some text
  else none

def literalFront : List Char → Option (List Char)
  | '\'' :: glyph :: '\'' :: _ => some ['\'', glyph, '\'']
  | _ => none

def staysOnLine (glyph : Char) : Bool :=
  !breaksLine glyph

/-- A hash sign and everything up to the end of the line, the line break included. -/
def commentFront : List Char → Option (List Char)
  | '#' :: rest =>
      some ('#' :: (rest.takeWhile staysOnLine ++ (rest.dropWhile staysOnLine).head?.toList))
  | _ => none

/-- One character of a first class and all following ones of a second. -/
def runFront (first others : Char → Bool) : List Char → Option (List Char)
  | glyph :: rest => if first glyph then some (glyph :: rest.takeWhile others) else none
  | [] => none

def Kind.front : Kind → List Char → Option (List Char)
  | .symbol sign => spellingFront [sign.glyph]
  | .keyword word => spellingFront word.spelling.toList
  | .literal => literalFront
  | .comment => commentFront
  | .identifier => runFront isIdentifierStart isIdentifierPart
  | .integer => runFront Char.isDigit Char.isDigit

/-- The longest spelling in front among some candidates and the best one so far. -/
def longestFront (content : List Char) (best : Option (Kind × Nat)) :
    List (Kind × List Char) → Option Kind
  | [] => best.map Prod.fst
  | (kind, text) :: others =>
      if best.all fun found => found.2 < text.length then
        if (kind.front content).isSome then longestFront content (some (kind, text.length)) others
        else longestFront content best others
      else longestFront content best others

def frontKind (content : List Char) : Option Kind :=
  (longestFront content none Kind.fixed).or
    (Kind.varied.find? fun kind => (kind.front content).isSome)

/-! ## Laws of fronts -/

theorem spellingFront_eq_some {spelling content text : List Char}
    (found : spellingFront spelling content = some text) :
    text = spelling ∧ text <+: content := by
  unfold spellingFront at found
  split at found
  · rename_i front
    split at found
    · simp at found
    · obtain rfl := Option.some.inj found
      exact ⟨rfl, List.isPrefixOf_iff_prefix.mp front⟩
  · simp at found

theorem spellingFront_of_ne {first glyph : Char} {others rest : List Char}
    (different : first ≠ glyph) : spellingFront (first :: others) (glyph :: rest) = none := by
  simp [spellingFront, List.isPrefixOf, different]

theorem literalFront_eq_some {content text : List Char} (found : literalFront content = some text) :
    (∃ glyph, text = ['\'', glyph, '\'']) ∧ text <+: content := by
  unfold literalFront at found
  split at found
  · rename_i glyph rest
    obtain rfl := Option.some.inj found
    exact ⟨⟨glyph, rfl⟩, rest, rfl⟩
  · simp at found

theorem commentFront_eq_some {content text : List Char}
    (found : commentFront content = some text) : text ≠ [] ∧ text <+: content := by
  unfold commentFront at found
  split at found
  · rename_i rest
    obtain rfl := Option.some.inj found
    have lineBreak : (rest.dropWhile staysOnLine).head?.toList <+: rest.dropWhile staysOnLine := by
      cases rest.dropWhile staysOnLine with
      | nil => exact List.nil_prefix
      | cons glyph others => exact ⟨others, rfl⟩
    have body := (List.prefix_append_right_inj (rest.takeWhile staysOnLine)).mpr lineBreak
    rw [List.takeWhile_append_dropWhile] at body
    exact ⟨by simp, (List.prefix_cons_inj '#').mpr body⟩
  · simp at found

theorem runFront_eq_some {first others : Char → Bool} {content text : List Char}
    (found : runFront first others content = some text) :
    (∃ glyph rest, first glyph = true ∧ rest.all others = true ∧ text = glyph :: rest) ∧
      text <+: content := by
  cases content with
  | nil => simp [runFront] at found
  | cons glyph rest =>
      simp only [runFront] at found
      split at found
      · rename_i begins
        obtain rfl := Option.some.inj found
        exact ⟨⟨glyph, _, begins, List.all_takeWhile, rfl⟩,
          (List.prefix_cons_inj glyph).mpr (List.takeWhile_prefix others)⟩
      · simp at found

/-- A token takes at least one character from the front of the text. -/
theorem Kind.front_eq_some {kind : Kind} {content text : List Char}
    (found : kind.front content = some text) : text ≠ [] ∧ text <+: content := by
  cases kind with
  | symbol sign =>
      obtain ⟨rfl, front⟩ := spellingFront_eq_some found
      exact ⟨by simp, front⟩
  | keyword word =>
      obtain ⟨rfl, front⟩ := spellingFront_eq_some found
      refine ⟨?_, front⟩
      cases word <;> decide
  | literal =>
      obtain ⟨⟨glyph, rfl⟩, front⟩ := literalFront_eq_some found
      exact ⟨by simp, front⟩
  | comment => exact commentFront_eq_some found
  | identifier =>
      obtain ⟨⟨glyph, rest, -, -, rfl⟩, front⟩ := runFront_eq_some found
      exact ⟨by simp, front⟩
  | integer =>
      obtain ⟨⟨glyph, rest, -, -, rfl⟩, front⟩ := runFront_eq_some found
      exact ⟨by simp, front⟩

/-- The kind that is chosen is the best one so far or stands in front, and no kind that stands in
front has a longer spelling. -/
theorem longestFront_longest {content : List Char} {best : Option (Kind × Nat)}
    {candidates : List (Kind × List Char)} {kind : Kind}
    (found : longestFront content best candidates = some kind) :
    ∃ size, (best = some (kind, size) ∨ ∃ text, (kind, text) ∈ candidates ∧ text.length = size ∧
        (kind.front content).isSome = true) ∧
      (∀ other ∈ best, other.2 ≤ size) ∧
      ∀ candidate ∈ candidates, (candidate.1.front content).isSome = true →
        candidate.2.length ≤ size := by
  induction candidates generalizing best with
  | nil =>
      obtain ⟨⟨chosen, size⟩, rfl, rfl⟩ := Option.map_eq_some_iff.mp found
      exact ⟨size, .inl rfl, by simp, by simp⟩
  | cons candidate others inductionHypothesis =>
      rcases candidate with ⟨first, text⟩
      unfold longestFront at found
      split at found
      · rename_i longer
        split at found
        · rename_i stands
          obtain ⟨size, chosen, atLeast, longest⟩ := inductionHypothesis found
          have enough : text.length ≤ size := atLeast (first, text.length) rfl
          refine ⟨size, .inr ?_, ?_, ?_⟩
          · rcases chosen with same | ⟨other, member, length, inFront⟩
            · obtain ⟨rfl, rfl⟩ := Prod.mk.inj (Option.some.inj same)
              exact ⟨text, by simp, rfl, stands⟩
            · exact ⟨other, by simp [member], length, inFront⟩
          · rintro other rfl
            have shorter : other.2 < text.length := by simpa using longer
            omega
          · intro candidate member inFront
            rcases List.mem_cons.mp member with rfl | later
            · exact enough
            · exact longest candidate later inFront
        · rename_i absent
          obtain ⟨size, chosen, atLeast, longest⟩ := inductionHypothesis found
          refine ⟨size, chosen.imp_right ?_, atLeast, ?_⟩
          · rintro ⟨other, member, rest⟩
            exact ⟨other, by simp [member], rest⟩
          · intro candidate member inFront
            rcases List.mem_cons.mp member with rfl | later
            · exact absurd inFront absent
            · exact longest candidate later inFront
      · rename_i shorter
        obtain ⟨size, chosen, atLeast, longest⟩ := inductionHypothesis found
        refine ⟨size, chosen.imp_right ?_, atLeast, ?_⟩
        · rintro ⟨other, member, rest⟩
          exact ⟨other, by simp [member], rest⟩
        · intro candidate member inFront
          rcases List.mem_cons.mp member with rfl | later
          · cases best with
            | none => simp at shorter
            | some other =>
                have enough := atLeast other rfl
                have bound : text.length ≤ other.2 := by simpa using shorter
                exact Nat.le_trans bound enough
          · exact longest candidate later inFront

/-- Once something has been found, something is chosen. -/
theorem longestFront_some_ne_none (content : List Char) (best : Kind × Nat)
    (candidates : List (Kind × List Char)) :
    longestFront content (some best) candidates ≠ none := by
  induction candidates generalizing best with
  | nil => simp [longestFront]
  | cons candidate others inductionHypothesis =>
      unfold longestFront
      split
      · split <;> exact inductionHypothesis _
      · exact inductionHypothesis _

theorem longestFront_eq_none {content : List Char} {candidates : List (Kind × List Char)}
    (nothing : longestFront content none candidates = none) :
    ∀ candidate ∈ candidates, candidate.1.front content = none := by
  induction candidates with
  | nil => simp
  | cons candidate others inductionHypothesis =>
      rcases candidate with ⟨first, text⟩
      unfold longestFront at nothing
      simp only [Option.all_none, ↓reduceIte] at nothing
      split at nothing
      · exact absurd nothing (longestFront_some_ne_none content _ others)
      · rename_i absent
        intro candidate member
        rcases List.mem_cons.mp member with rfl | later
        · simpa using absent
        · exact inductionHypothesis nothing candidate later

theorem front_of_frontKind {content : List Char} {kind : Kind}
    (chosen : frontKind content = some kind) : ∃ text, kind.front content = some text := by
  rw [← Option.isSome_iff_exists]
  rcases Option.or_eq_some_iff.mp chosen with longest | ⟨-, varied⟩
  · obtain ⟨size, impossible | ⟨text, -, -, inFront⟩, -, -⟩ := longestFront_longest longest
    · simp at impossible
    · exact inFront
  · simpa using List.find?_some varied

/-! ## Which kind is chosen -/

theorem Kind.spelling_of_mem_fixed {entry : Kind × List Char} (member : entry ∈ Kind.fixed) :
    entry.1.spelling? = some entry.2 := by
  obtain ⟨kind, -, spelled⟩ := List.mem_filterMap.mp member
  obtain ⟨text, spelling, rfl⟩ := Option.map_eq_some_iff.mp spelled
  exact spelling

theorem Kind.front_of_spelling {kind : Kind} {text : List Char}
    (spelling : kind.spelling? = some text) (content : List Char) :
    kind.front content = spellingFront text content := by
  cases kind <;> simp [Kind.spelling?] at spelling <;> subst spelling <;> rfl

/-- Without a candidate in front, the best one so far stays. -/
theorem longestFront_of_none {content : List Char} {best : Option (Kind × Nat)}
    {candidates : List (Kind × List Char)}
    (absent : ∀ candidate ∈ candidates, candidate.1.front content = none) :
    longestFront content best candidates = best.map Prod.fst := by
  induction candidates with
  | nil => rfl
  | cons candidate others inductionHypothesis =>
      have none := absent candidate (by simp)
      have rest := inductionHypothesis fun other member => absent other (by simp [member])
      simp [longestFront, none, rest]

/-! ## Blanks and comments -/

theorem drop_length_takeWhile (passes : Char → Bool) (content : List Char) :
    content.drop (content.takeWhile passes).length = content.dropWhile passes := by
  calc content.drop (content.takeWhile passes).length
      = (content.takeWhile passes ++ content.dropWhile passes).drop
          (content.takeWhile passes).length := by rw [List.takeWhile_append_dropWhile]
    _ = content.dropWhile passes := List.drop_left

/-- How many characters the blanks and comments in front of a text take. -/
def triviaLength (content : List Char) : Nat :=
  let blanks := (content.takeWhile Text.isBlank).length
  match comment : commentFront (content.drop blanks) with
  | none => blanks
  | some text =>
      have : ((content.drop blanks).drop text.length).length < content.length := by
        obtain ⟨nonempty, front⟩ := commentFront_eq_some comment
        have positive := List.length_pos_iff.mpr nonempty
        have bound := front.length_le
        simp only [List.length_drop] at bound ⊢
        omega
      blanks + (text.length + triviaLength ((content.drop blanks).drop text.length))
termination_by content.length
decreasing_by exact this

theorem triviaLength_of_none {content : List Char}
    (comment : commentFront (content.dropWhile Text.isBlank) = none) :
    triviaLength content = (content.takeWhile Text.isBlank).length := by
  rw [← drop_length_takeWhile] at comment
  rw [triviaLength]
  split <;> simp_all

theorem triviaLength_of_some {content text : List Char}
    (comment : commentFront (content.dropWhile Text.isBlank) = some text) :
    triviaLength content =
      (content.takeWhile Text.isBlank).length +
        (text.length + triviaLength ((content.dropWhile Text.isBlank).drop text.length)) := by
  rw [← drop_length_takeWhile] at comment ⊢
  rw [triviaLength]
  split <;> simp_all

theorem commentFront_eq_none_iff {content : List Char} :
    commentFront content = none ↔ content.head? ≠ some '#' := by
  cases content with
  | nil => simp [commentFront]
  | cons glyph rest =>
      by_cases hash : glyph = '#'
      · simp [commentFront, hash]
      · simp [commentFront, hash]

/-- A comment is chosen exactly where one stands in front: no spelling begins with a hash sign. -/
theorem frontKind_eq_comment_iff {content : List Char} :
    frontKind content = some .comment ↔ commentFront content ≠ none := by
  constructor
  · intro chosen absent
    obtain ⟨text, front⟩ := front_of_frontKind chosen
    exact Option.some_ne_none text (front.symm.trans absent)
  · intro present
    have hash : content.head? = some '#' := by
      simpa [commentFront_eq_none_iff] using present
    obtain ⟨rest, rfl⟩ := List.head?_eq_some_iff.mp hash
    have noHash : ∀ entry ∈ Kind.fixed, entry.2 ≠ [] ∧ entry.2.head? ≠ some '#' := by decide
    have absent : ∀ entry ∈ Kind.fixed, entry.1.front ('#' :: rest) = none := by
      intro entry member
      obtain ⟨nonempty, other⟩ := noHash entry member
      obtain ⟨first, others, spelled⟩ := List.exists_cons_of_ne_nil nonempty
      rw [Kind.front_of_spelling (Kind.spelling_of_mem_fixed member), spelled]
      exact spellingFront_of_ne fun same => other (by rw [spelled, same]; rfl)
    rw [frontKind, longestFront_of_none absent]
    rfl

theorem triviaLength_eq_zero {content : List Char} (noBlank : content.takeWhile Text.isBlank = [])
    (noComment : commentFront content = none) : triviaLength content = 0 := by
  have same : content.dropWhile Text.isBlank = content := by
    rw [← drop_length_takeWhile, noBlank]
    rfl
  rw [triviaLength_of_none (by rwa [same]), noBlank]
  rfl

/-- Behind blanks and comments there are no further ones. -/
theorem triviaLength_drop (content : List Char) :
    triviaLength (content.drop (triviaLength content)) = 0 := by
  induction content using triviaLength.induct with
  | case1 content blanks comment =>
      simp only [blanks, drop_length_takeWhile] at comment
      rw [triviaLength_of_none comment, drop_length_takeWhile]
      refine triviaLength_eq_zero ?_ comment
      have stop := List.head?_dropWhile_not Text.isBlank content
      cases rest : content.dropWhile Text.isBlank with
      | nil => rfl
      | cons glyph others => simp_all
  | case2 content blanks text comment shorter inductionHypothesis =>
      simp only [blanks, drop_length_takeWhile] at comment inductionHypothesis
      rwa [triviaLength_of_some comment, ← List.drop_drop, ← List.drop_drop, drop_length_takeWhile]

/-! ## Reading a token from a checkpoint on -/

/-- A step that reads a token from the front of a plain buffer, if there is one. Otherwise it stops
somewhere behind the front, from where rewinding leads back. It reads at least one character if
there is any. -/
def Recognises (step : Buffer → Option (List Char) × Buffer)
    (front : List Char → Option (List Char)) : Prop :=
  ∀ buffer : Buffer, buffer.Plain → buffer.reading.Anchored → ∃ count,
    (step buffer).2.reading = buffer.reading.past count ∧ (step buffer).2.Plain ∧
      (step buffer).1 = front buffer.content ∧
      (∀ text, front buffer.content = some text → count = text.length) ∧
      (buffer.content ≠ [] → 0 < count)

namespace Buffer

theorem readText_spec (text : List Char) (buffer : Buffer) (plain : buffer.Plain) :
    ∃ count, (buffer.readText text).2.reading = buffer.reading.past count ∧
      (buffer.readText text).2.Plain ∧
      (buffer.readText text).1 = text.isPrefixOf buffer.content ∧
      (text.isPrefixOf buffer.content = true → count = text.length) ∧
      (text ≠ [] → buffer.content ≠ [] → 0 < count) := by
  induction text generalizing buffer with
  | nil => exact ⟨0, by simp [readText], plain, rfl, fun _ => rfl, by simp⟩
  | cons expected others inductionHypothesis =>
      rw [readText]
      cases content : buffer.content with
      | nil =>
          obtain ⟨rest, read, stays, after⟩ := read_of_nil plain content
          rw [read]
          exact ⟨0, by simpa using after, stays, rfl, by simp, by simp⟩
      | cons glyph tail =>
          obtain ⟨rest, read, stays, after, remaining⟩ := read_of_cons plain content
          rw [read]
          by_cases same : glyph = expected
          · obtain ⟨count, further, plainRest, result, size, -⟩ := inductionHypothesis rest stays
            rw [remaining] at result size
            refine ⟨1 + count, ?_, ?_, ?_, ?_, ?_⟩
            · simp only [same, ↓reduceIte, further, after, Reading.past_past]
            · simpa only [same, ↓reduceIte] using plainRest
            · simpa [same, List.isPrefixOf] using result
            · intro front
              have short := size (by simpa [same, List.isPrefixOf] using front)
              simp only [List.length_cons]
              omega
            · omega
          · have different : expected ≠ glyph := fun equal => same equal.symm
            refine ⟨1, ?_, ?_, ?_, ?_, ?_⟩
            · simp only [same, ↓reduceIte, after]
            · simpa only [same, ↓reduceIte] using stays
            · simp [same, List.isPrefixOf, different]
            · simp [List.isPrefixOf, different]
            · omega

theorem recognises_spelling {text : List Char} (nonempty : text ≠ []) :
    Recognises (readSpelling text) (spellingFront text) := by
  intro buffer plain _
  obtain ⟨count, after, stays, result, size, progress⟩ := readText_spec text buffer plain
  replace progress := progress nonempty
  unfold readSpelling spellingFront
  cases read : buffer.readText text with
  | mk matched rest =>
      rw [read] at after stays result
      simp only at after stays result
      cases matched with
      | false => exact ⟨count, after, stays, by simp [← result], by simp [← result], progress⟩
      | true =>
          obtain rfl := size result.symm
          simp only [← result, ↓reduceIte]
          by_cases word : text.all isIdentifierPart = true
          · -- The boundary is looked at without reading it.
            have next := rest.peek_fst 0
            have kept := (rest.reading_peek 0).trans after
            have plainAhead := stays.peek 0
            rw [content_of_past after, ← List.head?_eq_getElem?] at next
            refine ⟨text.length, ?_⟩
            simp only [word, ↓reduceIte, Bool.true_and, ← next]
            cases peeked : rest.peek 0 with
            | mk found ahead =>
                rw [peeked] at kept plainAhead
                cases found with
                | none => exact ⟨kept, plainAhead, by simp, by simp, progress⟩
                | some glyph =>
                    by_cases joins : isIdentifierPart glyph = true
                    · exact ⟨kept, plainAhead, by simp [joins], by simp [joins], progress⟩
                    · exact ⟨kept, plainAhead, by simp [joins], by simp [joins], progress⟩
          · refine ⟨text.length, ?_⟩
            simp only [word, Bool.false_eq_true, ↓reduceIte, Bool.false_and]
            exact ⟨after, stays, by simp, by simp, progress⟩

/-- Putting the character back that ended a run leads to the place behind the run. -/
theorem push_stop {behind : Buffer} (plain : behind.Plain) {origin : Reading}
    (anchored : origin.Anchored) {count : Nat} (after : behind.reading = origin.past (count + 1))
    {stop : Char} (found : origin.content[count]? = some stop) :
    (behind.push [stop] false false).Plain ∧
      (behind.push [stop] false false).reading = origin.past count := by
  obtain ⟨within, rfl⟩ := List.getElem?_eq_some_iff.mp found
  have logged : behind.log = origin.content[count] ::
      ((origin.content.take count).reverse ++ origin.log) := by
    calc behind.log = (origin.past (count + 1)).log := congrArg Reading.log after
      _ = _ := by
        simp only [Reading.past, List.take_succ_eq_append_getElem within, List.reverse_append,
          List.reverse_cons, List.reverse_nil, List.nil_append, List.cons_append]
  refine ⟨plain.push _, ?_⟩
  rw [reading_push_logged logged, after, Reading.back_past anchored within]

theorem recognises_run (first others : Char → Bool) :
    Recognises (readRun first others) (runFront first others) := by
  intro buffer plain anchored
  unfold readRun
  cases content : buffer.content with
  | nil =>
      obtain ⟨rest, read, stays, after⟩ := read_of_nil plain content
      rw [read]
      exact ⟨0, by simpa using after, stays, rfl, by simp [runFront], by simp⟩
  | cons glyph tail =>
      obtain ⟨rest, read, stays, after, remaining⟩ := read_of_cons plain content
      rw [read]
      by_cases begins : first glyph = true
      · obtain ⟨text, stop, further, plainRest⟩ := readUntil_spec (fun glyph => !others glyph) stays
        simp only [Bool.not_not, remaining] at text stop
        rw [after, Reading.past_past, text] at further
        have size : ∀ text, runFront first others (glyph :: tail) = some text →
            1 + (tail.takeWhile others).length = text.length := by
          intro text found
          simp only [runFront, begins, ↓reduceIte, Option.some.injEq] at found
          rw [← found, List.length_cons, Nat.add_comm]
        refine ⟨1 + (tail.takeWhile others).length, ?_⟩
        simp only [begins, ↓reduceIte]
        cases ran : rest.readUntil (fun glyph => !others glyph) with
        | mk run ending =>
            rcases ending with ⟨ended, behind⟩
            rw [ran] at text stop further plainRest
            simp only at text stop further plainRest
            cases ended with
            | none =>
                exact ⟨further, plainRest, by simp [runFront, begins, text], size, by omega⟩
            | some glyphBehind =>
                have found : buffer.reading.content[1 + (tail.takeWhile others).length]? =
                    some glyphBehind := by
                  rw [show buffer.reading.content = glyph :: tail from content, Nat.add_comm,
                    List.getElem?_cons_succ, ← Nat.add_zero (tail.takeWhile others).length,
                    ← List.getElem?_drop, drop_length_takeWhile, ← List.head?_eq_getElem?, stop]
                obtain ⟨plainBack, back⟩ := push_stop plainRest anchored further found
                exact ⟨back, plainBack, by simp [runFront, begins, text], size, by omega⟩
      · exact ⟨1, by simpa [begins] using after, by simpa [begins] using stays,
          by simp [begins, runFront], by simp [begins, runFront], by omega⟩

theorem recognises_literal : Recognises readLiteral literalFront := by
  intro buffer plain _
  unfold readLiteral
  cases content : buffer.content with
  | nil =>
      obtain ⟨rest, read, stays, after⟩ := read_of_nil plain content
      rw [read]
      exact ⟨0, by simpa using after, stays, rfl, by simp [literalFront], by simp⟩
  | cons opening tail =>
      obtain ⟨rest, read, stays, after, remaining⟩ := read_of_cons plain content
      rw [read]
      by_cases quote : opening = '\''
      · subst quote
        cases tail with
        | nil =>
            obtain ⟨second, readSecond, staysSecond, afterSecond⟩ := read_of_nil stays remaining
            simp only [readSecond]
            exact ⟨1, afterSecond.trans after, staysSecond, by simp [literalFront],
              by simp [literalFront], by omega⟩
        | cons glyph others =>
            obtain ⟨second, readSecond, staysSecond, afterSecond, remainingSecond⟩ :=
              read_of_cons stays remaining
            simp only [readSecond]
            rw [after, Reading.past_past] at afterSecond
            cases others with
            | nil =>
                obtain ⟨third, readThird, staysThird, afterThird⟩ :=
                  read_of_nil staysSecond remainingSecond
                simp only [readThird]
                exact ⟨2, afterThird.trans afterSecond, staysThird, by simp [literalFront],
                  by simp [literalFront], by omega⟩
            | cons closing final =>
                obtain ⟨third, readThird, staysThird, afterThird, -⟩ :=
                  read_of_cons staysSecond remainingSecond
                rw [afterSecond, Reading.past_past] at afterThird
                refine ⟨3, ?_⟩
                simp only [readThird]
                by_cases closed : closing = '\''
                · subst closed
                  exact ⟨afterThird, staysThird, by simp [literalFront], by simp [literalFront],
                    by omega⟩
                · split
                  · simp_all
                  · rename_i found other _ step
                    obtain ⟨-, rfl⟩ := Prod.mk.inj step
                    exact ⟨afterThird, staysThird, by simp [literalFront, closed],
                      by simp [literalFront, closed], by omega⟩
      · split
        · simp_all
        · rename_i found other _ step
          obtain ⟨-, rfl⟩ := Prod.mk.inj step
          exact ⟨1, after, stays, by simp [literalFront, quote], by simp [literalFront, quote],
            by omega⟩

theorem recognises_comment : Recognises readComment commentFront := by
  intro buffer plain _
  unfold readComment
  cases content : buffer.content with
  | nil =>
      obtain ⟨rest, read, stays, after⟩ := read_of_nil plain content
      rw [read]
      exact ⟨0, by simpa using after, stays, rfl, by simp [commentFront], by simp⟩
  | cons opening tail =>
      obtain ⟨rest, read, stays, after, remaining⟩ := read_of_cons plain content
      rw [read]
      by_cases hash : opening = '#'
      · subst hash
        obtain ⟨text, stop, further, plainBody⟩ := readUntil_spec breaksLine stays
        rw [remaining] at text stop
        rw [after, Reading.past_past] at further
        refine ⟨_, further, plainBody, ?_, ?_, by omega⟩
        · simp only [commentFront, text, stop]
          rfl
        · intro found same
          simp only [commentFront, Option.some.injEq] at same
          rw [← same, text, stop, List.length_cons, List.length_append, Nat.add_comm]
          rfl
      · split
        · simp_all
        · rename_i found other _ step
          obtain ⟨-, rfl⟩ := Prod.mk.inj step
          exact ⟨1, after, stays, by simp [commentFront, hash], by simp [commentFront, hash],
            by omega⟩

/-- Every kind of token is recognised by its text alone. -/
theorem recognises_token (kind : Kind) : Recognises (readToken kind) kind.front := by
  cases kind with
  | symbol sign => exact recognises_spelling (List.cons_ne_nil _ _)
  | keyword word => exact recognises_spelling (by cases word <;> decide)
  | literal => exact recognises_literal
  | comment => exact recognises_comment
  | identifier => exact recognises_run isIdentifierStart isIdentifierPart
  | integer => exact recognises_run Char.isDigit Char.isDigit

/-! ## Extracting and probing -/

/-- Extraction takes the token in front, and nothing if there is none. -/
theorem extract_spec (kind : Kind) {buffer : Buffer} (sound : buffer.Sound) :
    (buffer.extract kind).1 = kind.front buffer.content ∧ (buffer.extract kind).2.Plain ∧
      (buffer.extract kind).2.reading =
        buffer.reading.checkpoint.past ((kind.front buffer.content).getD []).length := by
  have marked := reading_checkpoint buffer
  have same : buffer.checkpoint.content = buffer.content := congrArg Reading.content marked
  obtain ⟨count, after, stays, result, size, -⟩ := recognises_token kind buffer.checkpoint
    sound.checkpoint (by rw [marked]; exact Reading.anchored_checkpoint _)
  rw [same] at result size
  rw [marked] at after
  unfold extract
  cases read : buffer.checkpoint.readToken kind with
  | mk found rest =>
      rw [read] at after stays result
      simp only at after stays result
      rw [← result] at size ⊢
      cases found with
      | none =>
          refine ⟨rfl, stays.rewind, ?_⟩
          rw [reading_rewind stays, after, Reading.rewind_past_checkpoint]
          simp
      | some text =>
          obtain rfl := size text rfl
          exact ⟨rfl, stays, after⟩

/-- What probing leaves: a checkpoint at the same place, with the next character drawn. -/
structure Probed (buffer probed : Buffer) : Prop where
  plain : probed.Plain
  reading : probed.reading = buffer.reading.checkpoint
  stocked : probed.unread = [] → probed.content = []

theorem Probed.content {buffer probed : Buffer} (left : Probed buffer probed) :
    probed.content = buffer.content :=
  congrArg Reading.content left.reading

theorem Probed.trans {buffer probed final : Buffer} (first : Probed buffer probed)
    (second : Probed probed final) : Probed buffer final where
  plain := second.plain
  reading := by rw [second.reading, first.reading, Reading.checkpoint_checkpoint]
  stocked := second.stocked

/-- Going back over what a reader has read leaves a character in front, if there is any. -/
theorem probed_rewind {buffer behind : Buffer} (plain : behind.Plain) {count : Nat}
    (after : behind.reading = buffer.reading.checkpoint.past count)
    (progress : buffer.content ≠ [] → 0 < count) : Probed buffer behind.rewind where
  plain := plain.rewind
  reading := by rw [reading_rewind plain, after, Reading.rewind_past_checkpoint]
  stocked := by
    intro nothing
    have back : behind.rewind.reading = buffer.reading.checkpoint := by
      rw [reading_rewind plain, after, Reading.rewind_past_checkpoint]
    have log : behind.log = (buffer.content.take count).reverse :=
      (congrArg Reading.log after).trans (List.append_nil _)
    have same : behind.rewind.content = buffer.content := congrArg Reading.content back
    rw [rewind_unread plain.sound, log] at nothing
    simp only [List.reverse_reverse, List.append_eq_nil_iff, List.map_eq_nil_iff,
      List.take_eq_nil_iff] at nothing
    rw [same]
    rcases nothing.1 with unmoved | empty
    · exact Decidable.byContradiction fun something => by
        have positive := progress something
        omega
    · exact empty

/-- Probing tells whether there is a token and leaves all there is to read. -/
theorem probe_spec (kind : Kind) {buffer : Buffer} (sound : buffer.Sound) :
    (buffer.probe kind).1 = (kind.front buffer.content).isSome ∧
      Probed buffer (buffer.probe kind).2 := by
  have marked := reading_checkpoint buffer
  have same : buffer.checkpoint.content = buffer.content := congrArg Reading.content marked
  obtain ⟨count, after, stays, result, -, progress⟩ := recognises_token kind buffer.checkpoint
    sound.checkpoint (by rw [marked]; exact Reading.anchored_checkpoint _)
  rw [same] at result progress
  rw [marked] at after
  have back := probed_rewind stays after progress
  unfold probe extract
  cases read : buffer.checkpoint.readToken kind with
  | mk found rest =>
      rw [read] at result back
      simp only at result back
      rw [← result]
      cases found with
      | some text => exact ⟨rfl, back⟩
      | none => exact ⟨rfl, by simpa using back⟩

/-! ## Choosing the kind -/

theorem longestSpelling_spec (candidates : List (Kind × List Char)) (best : Option (Kind × Nat))
    {origin buffer : Buffer} (probed : Probed origin buffer) :
    (longestSpelling best candidates buffer).1 = longestFront origin.content best candidates ∧
      Probed origin (longestSpelling best candidates buffer).2 := by
  induction candidates generalizing best buffer with
  | nil => exact ⟨rfl, probed⟩
  | cons candidate others inductionHypothesis =>
      rcases candidate with ⟨kind, text⟩
      unfold longestSpelling longestFront
      split
      · obtain ⟨result, left⟩ := probe_spec kind probed.plain.sound
        rw [probed.content] at result
        cases step : buffer.probe kind with
        | mk found rest =>
            rw [step] at result left
            rw [← result]
            cases found with
            | true => exact inductionHypothesis _ (probed.trans left)
            | false => exact inductionHypothesis _ (probed.trans left)
      · exact inductionHypothesis best probed

theorem firstKind_spec (kinds : List Kind) {origin buffer : Buffer}
    (probed : Probed origin buffer) :
    (firstKind kinds buffer).1 = kinds.find? (fun kind => (kind.front origin.content).isSome) ∧
      Probed origin (firstKind kinds buffer).2 := by
  induction kinds generalizing buffer with
  | nil => exact ⟨rfl, probed⟩
  | cons kind others inductionHypothesis =>
      obtain ⟨result, left⟩ := probe_spec kind probed.plain.sound
      rw [probed.content] at result
      unfold firstKind
      rw [List.find?_cons]
      cases step : buffer.probe kind with
      | mk found rest =>
          rw [step] at result left
          rw [← result]
          cases found with
          | true => exact ⟨rfl, probed.trans left⟩
          | false => exact inductionHypothesis (probed.trans left)

/-- The first candidate is always probed. -/
theorem longestSpelling_fixed_spec {buffer : Buffer} (sound : buffer.Sound) :
    (longestSpelling none Kind.fixed buffer).1 = longestFront buffer.content none Kind.fixed ∧
      Probed buffer (longestSpelling none Kind.fixed buffer).2 := by
  obtain ⟨kind, text, others, candidates⟩ : ∃ kind text others,
      Kind.fixed = (kind, text) :: others := ⟨_, _, _, rfl⟩
  obtain ⟨result, left⟩ := probe_spec kind sound
  rw [candidates]
  unfold longestSpelling longestFront
  simp only [Option.all_none, ↓reduceIte]
  cases step : buffer.probe kind with
  | mk found rest =>
      rw [step] at result left
      rw [← result]
      cases found with
      | true => exact longestSpelling_spec others _ left
      | false => exact longestSpelling_spec others _ left

theorem classify_spec {buffer : Buffer} (sound : buffer.Sound) :
    buffer.classify.1 = frontKind buffer.content ∧ Probed buffer buffer.classify.2 := by
  obtain ⟨longest, left⟩ := longestSpelling_fixed_spec sound
  unfold classify frontKind
  cases chosen : longestSpelling none Kind.fixed buffer with
  | mk found rest =>
      rw [chosen] at longest left
      rw [← longest]
      cases found with
      | some kind => exact ⟨rfl, left⟩
      | none => exact firstKind_spec Kind.varied left

/-! ## Skipping -/

theorem skipTrivia_of_comment {buffer ahead rest : Buffer} {text : List Char}
    (chosen : (buffer.readWhile Text.isBlank).2.classify = (some .comment, ahead))
    (comment : ahead.extract .comment = (some text, rest)) :
    buffer.skipTrivia = rest.skipTrivia := by
  rw [skipTrivia]
  split
  · rename_i other same
    obtain ⟨-, rfl⟩ := Prod.mk.inj (chosen.symm.trans same)
    split
    · rename_i found final step
      obtain ⟨-, rfl⟩ := Prod.mk.inj (comment.symm.trans step)
      rfl
    · simp_all
  · simp_all

theorem skipTrivia_of_other {buffer ahead : Buffer} {kind : Option Kind}
    (chosen : (buffer.readWhile Text.isBlank).2.classify = (kind, ahead))
    (other : kind ≠ some .comment) : buffer.skipTrivia = ahead := by
  rw [skipTrivia]
  split
  · simp_all
  · simp_all

/-- Skipping goes behind the blanks and comments in front, sets a checkpoint there and draws the
next character, if there is any. -/
theorem skipTrivia_spec {buffer : Buffer} (sound : buffer.Sound) :
    buffer.skipTrivia.Plain ∧
      buffer.skipTrivia.reading =
        (buffer.reading.past (triviaLength buffer.content)).checkpoint ∧
      (buffer.skipTrivia.unread = [] → buffer.skipTrivia.content = []) := by
  obtain ⟨-, after, stays⟩ := readWhile_spec Text.isBlank sound
  obtain ⟨kind, left⟩ := classify_spec stays
  have ahead := left.reading
  have blanks : (buffer.readWhile Text.isBlank).2.content =
      buffer.content.dropWhile Text.isBlank :=
    (congrArg Reading.content after).trans (drop_length_takeWhile Text.isBlank buffer.content)
  rw [after] at ahead
  rw [blanks] at kind
  cases chosen : (buffer.readWhile Text.isBlank).2.classify with
  | mk found next =>
      rw [chosen] at kind left ahead
      simp only at kind left ahead
      subst kind
      by_cases comment : commentFront (buffer.content.dropWhile Text.isBlank) = none
      · have other : frontKind (buffer.content.dropWhile Text.isBlank) ≠ some .comment :=
          fun same => frontKind_eq_comment_iff.mp same comment
        rw [skipTrivia_of_other chosen other, triviaLength_of_none comment]
        exact ⟨left.plain, ahead, left.stocked⟩
      · rw [frontKind_eq_comment_iff.mpr comment] at chosen
        obtain ⟨text, front⟩ := Option.ne_none_iff_exists'.mp comment
        have content : next.content = buffer.content.dropWhile Text.isBlank :=
          (congrArg Reading.content ahead).trans (drop_length_takeWhile Text.isBlank buffer.content)
        obtain ⟨result, plainRest, behind⟩ := extract_spec .comment left.plain.sound
        rw [content, show Kind.front .comment = commentFront from rfl, front] at result behind
        cases extracted : next.extract .comment with
        | mk found rest =>
            rw [extracted] at result plainRest behind
            simp only [Option.getD_some] at result plainRest behind
            subst result
            have shorter : rest.stock < buffer.stock := by
              have read := stock_readWhile Text.isBlank buffer
              have probed := stock_classify (buffer.readWhile Text.isBlank).2
              have spent := stock_extract_comment_lt extracted
              rw [chosen] at probed
              exact Nat.lt_of_lt_of_le spent (Nat.le_trans probed read)
            obtain ⟨plainBehind, skipped, stocked⟩ := skipTrivia_spec plainRest.sound
            rw [skipTrivia_of_comment chosen extracted]
            refine ⟨plainBehind, ?_, stocked⟩
            have remaining : rest.content =
                (buffer.content.dropWhile Text.isBlank).drop text.length := by
              rw [← content]
              exact congrArg Reading.content behind
            rw [skipped, remaining, behind, ahead, triviaLength_of_some front,
              ← Reading.past_past, ← Reading.past_past]
            rfl
termination_by buffer.stock
decreasing_by exact shorter

end Buffer

end TapeMachine
