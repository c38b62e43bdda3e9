import TapeMachine.Proofs.Token.Recognition
import TapeMachine.Token.Lexer

/-!
Contract: a lexer as a cursor over the tokens of a text.

Owns: the tokens of a passage of text, the outlook of a lexer (the tokens that follow its place and
each of its marks, and how the input ends), and the agreement of every operation of a lexer with
the same operation on its outlook.

An outlook holds no text and nothing that was recorded: going back to a mark, forgetting what was
recorded and reading on are indistinguishable from moving along one list of tokens.
-/

namespace TapeMachine

/-! ## The tokens of a passage -/

structure Passage where
  name : String
  line : Nat
  content : List Char
deriving DecidableEq, Repr

/-- What stands in front of a passage: the end, text that is no token, or a token and what is
behind it. -/
inductive Front where
  | nothing
  | unknown (error : LexError)
  | token (lexeme : Lexeme) (rest : Passage)
deriving DecidableEq, Repr

/-- Whether a token stands in front. -/
def Front.follows : Front → Except LexError Bool
  | .nothing => .ok false
  | .unknown error => .error error
  | .token _ _ => .ok true

namespace Passage

def past (passage : Passage) (count : Nat) : Passage :=
  { passage with
    line := passage.line + (passage.content.take count).countP breaksLine
    content := passage.content.drop count }

/-- Behind the blanks and comments in front. -/
def trimmed (passage : Passage) : Passage :=
  passage.past (triviaLength passage.content)

/-- What stands behind the blanks and comments in front. -/
def front (passage : Passage) : Front :=
  match passage.trimmed.content with
  | [] => .nothing
  | glyph :: rest =>
      match frontKind (glyph :: rest) with
      | none => .unknown ⟨passage.trimmed.line, glyph.toString, passage.trimmed.name⟩
      | some kind =>
          match kind.front (glyph :: rest) with
          | none => .nothing
          | some text =>
              .token ⟨kind, String.ofList text, passage.trimmed.line, passage.trimmed.name⟩
                (passage.trimmed.past text.length)

@[simp] theorem past_content (passage : Passage) (count : Nat) :
    (passage.past count).content = passage.content.drop count := rfl

@[simp] theorem past_zero (passage : Passage) : passage.past 0 = passage := by
  simp [past]

@[simp] theorem trimmed_trimmed (passage : Passage) : passage.trimmed.trimmed = passage.trimmed := by
  rw [trimmed, show triviaLength passage.trimmed.content = 0 from triviaLength_drop passage.content,
    past_zero]

@[simp] theorem front_trimmed (passage : Passage) : passage.trimmed.front = passage.front := by
  simp only [front, trimmed_trimmed]

theorem front_of_nil {passage : Passage} (finished : passage.trimmed.content = []) :
    passage.front = .nothing := by
  simp only [front, finished]

theorem front_of_none {passage : Passage} {glyph : Char} {rest : List Char}
    (content : passage.trimmed.content = glyph :: rest)
    (unknown : frontKind passage.trimmed.content = none) :
    passage.front = .unknown ⟨passage.trimmed.line, glyph.toString, passage.trimmed.name⟩ := by
  rw [content] at unknown
  simp only [front, content, unknown]

theorem front_of_some {passage : Passage} {kind : Kind} {text : List Char}
    (chosen : frontKind passage.trimmed.content = some kind)
    (extracted : kind.front passage.trimmed.content = some text) :
    passage.front =
      .token ⟨kind, String.ofList text, passage.trimmed.line, passage.trimmed.name⟩
        (passage.trimmed.past text.length) := by
  cases content : passage.trimmed.content with
  | nil =>
      obtain ⟨nonempty, inFront⟩ := Kind.front_eq_some extracted
      rw [content] at inFront
      exact absurd (List.prefix_nil.mp inFront) nonempty
  | cons glyph rest =>
      rw [content] at chosen extracted
      simp only [front, content, chosen, extracted]

/-- The three things that can stand in front of a passage. -/
theorem front_cases (passage : Passage) :
    (passage.trimmed.content = [] ∧ passage.front = .nothing) ∨
      (∃ glyph rest, passage.trimmed.content = glyph :: rest ∧
        frontKind passage.trimmed.content = none ∧
        passage.front =
          .unknown ⟨passage.trimmed.line, glyph.toString, passage.trimmed.name⟩) ∨
      ∃ kind text, passage.trimmed.content ≠ [] ∧
        frontKind passage.trimmed.content = some kind ∧
        kind.front passage.trimmed.content = some text ∧
        passage.front =
          .token ⟨kind, String.ofList text, passage.trimmed.line, passage.trimmed.name⟩
            (passage.trimmed.past text.length) := by
  cases content : passage.trimmed.content with
  | nil => exact .inl ⟨rfl, front_of_nil content⟩
  | cons glyph rest =>
      rw [← content]
      cases chosen : frontKind passage.trimmed.content with
      | none => exact .inr (.inl ⟨glyph, rest, content, rfl, front_of_none content chosen⟩)
      | some kind =>
          obtain ⟨text, extracted⟩ := front_of_frontKind chosen
          exact .inr (.inr ⟨kind, text, by simp [content], rfl, extracted,
            front_of_some chosen extracted⟩)

theorem front_eq_nothing {passage : Passage} (found : passage.front = .nothing) :
    passage.trimmed.content = [] := by
  rcases passage.front_cases with ⟨finished, -⟩ | ⟨_, _, -, -, front⟩ | ⟨_, _, -, -, -, front⟩
  · exact finished
  · simp [front] at found
  · simp [front] at found

theorem front_eq_unknown {passage : Passage} {error : LexError}
    (found : passage.front = .unknown error) :
    ∃ glyph rest, passage.trimmed.content = glyph :: rest ∧
      frontKind passage.trimmed.content = none ∧
      error = ⟨passage.trimmed.line, glyph.toString, passage.trimmed.name⟩ := by
  rcases passage.front_cases with ⟨-, front⟩ | ⟨glyph, rest, content, unknown, front⟩ |
    ⟨_, _, -, -, -, front⟩
  · simp [front] at found
  · exact ⟨glyph, rest, content, unknown, Front.unknown.inj (found.symm.trans front)⟩
  · simp [front] at found

theorem front_eq_token {passage rest : Passage} {lexeme : Lexeme}
    (found : passage.front = .token lexeme rest) :
    ∃ kind text, frontKind passage.trimmed.content = some kind ∧
      kind.front passage.trimmed.content = some text ∧
      lexeme = ⟨kind, String.ofList text, passage.trimmed.line, passage.trimmed.name⟩ ∧
      rest = passage.trimmed.past text.length := by
  rcases passage.front_cases with ⟨-, front⟩ | ⟨_, _, -, -, front⟩ |
    ⟨kind, text, -, chosen, extracted, front⟩
  · simp [front] at found
  · simp [front] at found
  · obtain ⟨same, behind⟩ := Front.token.inj (found.symm.trans front)
    exact ⟨kind, text, chosen, extracted, same, behind⟩

theorem length_of_front_token {passage rest : Passage} {lexeme : Lexeme}
    (found : passage.front = .token lexeme rest) :
    rest.content.length < passage.content.length := by
  obtain ⟨kind, text, -, extracted, -, rfl⟩ := front_eq_token found
  obtain ⟨nonempty, inFront⟩ := Kind.front_eq_some extracted
  have positive := List.length_pos_iff.mpr nonempty
  have bound := inFront.length_le
  simp only [trimmed, past_content, List.length_drop] at bound ⊢
  omega

/-- The tokens of a passage up to its end or the first text that is no token. -/
def lex (passage : Passage) : List Lexeme × Option LexError :=
  match found : passage.front with
  | .nothing => ([], none)
  | .unknown error => ([], some error)
  | .token lexeme rest =>
      have := length_of_front_token found
      (lexeme :: rest.lex.1, rest.lex.2)
termination_by passage.content.length

theorem lex_of_nothing {passage : Passage} (found : passage.front = .nothing) :
    passage.lex = ([], none) := by
  rw [lex]
  split <;> simp_all

theorem lex_of_unknown {passage : Passage} {error : LexError}
    (found : passage.front = .unknown error) : passage.lex = ([], some error) := by
  rw [lex]
  split <;> simp_all

theorem lex_of_token {passage rest : Passage} {lexeme : Lexeme}
    (found : passage.front = .token lexeme rest) :
    passage.lex = (lexeme :: rest.lex.1, rest.lex.2) := by
  rw [lex]
  split <;> simp_all

@[simp] theorem lex_trimmed (passage : Passage) : passage.trimmed.lex = passage.lex := by
  have same := passage.front_trimmed
  cases found : passage.front with
  | nothing => rw [lex_of_nothing found, lex_of_nothing (same.trans found)]
  | unknown error => rw [lex_of_unknown found, lex_of_unknown (same.trans found)]
  | token lexeme rest => rw [lex_of_token found, lex_of_token (same.trans found)]

theorem length_lex (passage : Passage) : passage.lex.1.length ≤ passage.content.length := by
  induction passage using lex.induct with
  | case1 passage found => simp [lex_of_nothing found]
  | case2 passage error found => simp [lex_of_unknown found]
  | case3 passage lexeme rest found shorter inductionHypothesis =>
      rw [lex_of_token found, List.length_cons]
      omega

/-- The text of a token is what the kind of the token has in front of some text. -/
theorem front_of_mem_lex {passage : Passage} {lexeme : Lexeme} (member : lexeme ∈ passage.lex.1) :
    ∃ content, lexeme.kind.front content = some lexeme.text.toList := by
  induction passage using lex.induct with
  | case1 passage found => simp [lex_of_nothing found] at member
  | case2 passage error found => simp [lex_of_unknown found] at member
  | case3 passage first rest found shorter inductionHypothesis =>
      rw [lex_of_token found] at member
      rcases List.mem_cons.mp member with rfl | later
      · obtain ⟨kind, text, -, extracted, rfl, -⟩ := front_eq_token found
        exact ⟨passage.trimmed.content, by simpa using extracted⟩
      · exact inductionHypothesis later

end Passage

/-! ## The front of a buffer -/

namespace Buffer

def passage (buffer : Buffer) : Passage where
  name := buffer.name
  line := buffer.line
  content := buffer.content

theorem passage_of_past {buffer rest : Buffer} {count : Nat}
    (after : rest.reading.checkpoint = (buffer.reading.past count).checkpoint) :
    rest.passage = buffer.passage.past count := by
  have name := congrArg Reading.name after
  have line := congrArg Reading.line after
  have content := congrArg Reading.content after
  simp only [Reading.checkpoint_name, Reading.checkpoint_line, Reading.checkpoint_content] at *
  rw [passage, show rest.name = _ from name, show rest.line = _ from line,
    show rest.content = _ from content]
  rfl

theorem passage_of_reading {buffer rest : Buffer} (same : rest.reading = buffer.reading) :
    rest.passage = buffer.passage := by
  have past := @passage_of_past buffer rest 0 (by rw [same]; simp)
  simpa using past

@[simp] theorem passage_fill (buffer : Buffer) (wanted : Nat) :
    (buffer.fill wanted).passage = buffer.passage :=
  passage_of_reading (buffer.reading_fill wanted)

theorem passage_of_probed {buffer probed : Buffer} (left : Probed buffer probed) :
    probed.passage = buffer.passage := by
  have past := @passage_of_past buffer probed 0 (by rw [left.reading]; simp)
  simpa using past

theorem passage_skipTrivia {buffer : Buffer} (sound : buffer.Sound) :
    buffer.skipTrivia.passage = buffer.passage.trimmed :=
  passage_of_past (by rw [(skipTrivia_spec sound).2.1, Reading.checkpoint_checkpoint]; rfl)

/-- Behind blanks and comments, nothing is there only where nothing is to come: choosing what
stands there has drawn the next character. -/
theorem isEmpty_skipTrivia {buffer : Buffer} (sound : buffer.Sound) :
    buffer.skipTrivia.isEmpty.1 = buffer.passage.trimmed.content.isEmpty := by
  obtain ⟨-, -, stocked⟩ := skipTrivia_spec sound
  have content : buffer.skipTrivia.content = buffer.passage.trimmed.content :=
    congrArg Passage.content (passage_skipTrivia sound)
  obtain ⟨drawn, stream, filled, kept⟩ := buffer.skipTrivia.fill_append 0
  rw [← content, Bool.eq_iff_iff, Buffer.isEmpty, filled]
  simp only [List.isEmpty_iff, List.append_eq_nil_iff, List.map_eq_nil_iff]
  constructor
  · exact fun nothing => stocked nothing.1
  · intro finished
    simp only [Buffer.content, kept, List.append_eq_nil_iff, List.map_eq_nil_iff] at finished
    exact ⟨finished.1, finished.2.1⟩

theorem refusal_spec {buffer : Buffer} (plain : buffer.Plain) :
    buffer.refusal.1 =
        ⟨buffer.line, (buffer.content.head?.map Char.toString).getD "", buffer.name⟩ ∧
      buffer.refusal.2.Plain ∧ buffer.refusal.2.reading = buffer.reading := by
  have front := buffer.peek_fst 0
  rw [← List.head?_eq_getElem?] at front
  refine ⟨?_, plain.peek 0, buffer.reading_peek 0⟩
  simp only [refusal, front]

end Buffer

/-! ## Outlooks -/

/-- A place in a list of tokens, with marked places and the way the input ends. -/
structure Outlook where
  ahead : List Lexeme
  /-- What follows each mark, innermost first. -/
  marked : List (List Lexeme)
  /-- The error behind the last token, if the input does not simply end there. -/
  ending : Option LexError

namespace Outlook

def next (outlook : Outlook) : Except LexError (Option Lexeme) × Outlook :=
  match outlook.ahead, outlook.ending with
  | lexeme :: others, _ => (.ok (some lexeme), { outlook with ahead := others })
  | [], some error => (.error error, outlook)
  | [], none => (.ok none, outlook)

def hasNext (outlook : Outlook) : Except LexError Bool :=
  match outlook.ahead, outlook.ending with
  | _ :: _, _ => .ok true
  | [], some error => .error error
  | [], none => .ok false

def openMark (outlook : Outlook) : Outlook :=
  { outlook with marked := outlook.ahead :: outlook.marked }

def rewindMark (outlook : Outlook) : Outlook :=
  { outlook with ahead := outlook.marked.head?.getD outlook.ahead }

def closeMark (outlook : Outlook) : Outlook :=
  { outlook with marked := outlook.marked.tail }

end Outlook

namespace Lexer

/-- The tokens from a place among the recorded ones on. -/
def tokensFrom (lexer : Lexer) (place : Nat) : List Lexeme :=
  lexer.recorded.toList.drop place ++ lexer.buffer.passage.lex.1

def outlook (lexer : Lexer) : Outlook where
  ahead := lexer.tokensFrom lexer.cursor
  marked := lexer.marks.map lexer.tokensFrom
  ending := lexer.buffer.passage.lex.2

/-- The places of a lexer are places among what it has recorded. -/
structure Steady (lexer : Lexer) : Prop where
  sound : lexer.buffer.Sound
  cursor : lexer.cursor ≤ lexer.recorded.size
  marks : ∀ mark ∈ lexer.marks, mark ≤ lexer.recorded.size

theorem steady_ofBuffer {buffer : Buffer} (sound : buffer.Sound) : (ofBuffer buffer).Steady where
  sound := sound
  cursor := Nat.le_refl 0
  marks := by simp [ofBuffer]

theorem outlook_ofBuffer (buffer : Buffer) :
    (ofBuffer buffer).outlook = ⟨buffer.passage.lex.1, [], buffer.passage.lex.2⟩ := by
  simp [ofBuffer, outlook, tokensFrom]

/-! ## Operations of a lexer -/

/-- A recorded token in front is the first one that follows. -/
theorem tokensFrom_of_getElem? {lexer : Lexer} {place : Nat} {lexeme : Lexeme}
    (found : lexer.recorded[place]? = some lexeme) :
    lexer.tokensFrom place = lexeme :: lexer.tokensFrom (place + 1) := by
  obtain ⟨bound, rfl⟩ := Array.getElem?_eq_some_iff.mp found
  rw [tokensFrom, List.drop_eq_getElem_cons (by simpa using bound)]
  rfl

theorem tokensFrom_of_size_le {lexer : Lexer} {place : Nat} (beyond : lexer.recorded.size ≤ place) :
    lexer.tokensFrom place = lexer.buffer.passage.lex.1 := by
  rw [tokensFrom, List.drop_eq_nil_of_le (by simpa using beyond), List.nil_append]

/-- Moving the buffer behind blanks and comments is not seen. -/
theorem outlook_skip (lexer : Lexer) {buffer : Buffer}
    (skipped : buffer.passage = lexer.buffer.passage.trimmed) :
    ({ lexer with buffer := buffer } : Lexer).outlook = lexer.outlook := by
  have same : ({ lexer with buffer := buffer } : Lexer).tokensFrom = lexer.tokensFrom := by
    funext place
    simp [tokensFrom, skipped]
  simp [outlook, same, skipped]

theorem Steady.skip {lexer : Lexer} (steady : lexer.Steady) {buffer : Buffer}
    (sound : buffer.Sound) : ({ lexer with buffer := buffer } : Lexer).Steady where
  sound := sound
  cursor := steady.cursor
  marks := steady.marks

/-- Taking a token out of the buffer moves every view of the lexer in step. -/
theorem record_spec {lexer : Lexer} (steady : lexer.Steady)
    (unrecorded : lexer.recorded.size ≤ lexer.cursor) {buffer : Buffer} (sound : buffer.Sound)
    {lexeme : Lexeme}
    (lexed : lexer.buffer.passage.lex =
      (lexeme :: buffer.passage.lex.1, buffer.passage.lex.2)) :
    (record { lexer with buffer := buffer } lexeme).Steady ∧
      (record { lexer with buffer := buffer } lexeme).outlook =
        ⟨buffer.passage.lex.1, lexer.outlook.marked, buffer.passage.lex.2⟩ := by
  have atEnd : lexer.cursor = lexer.recorded.size := Nat.le_antisymm steady.cursor unrecorded
  unfold record
  by_cases unmarked : lexer.marks.isEmpty = true
  · have none : lexer.marks = [] := List.isEmpty_iff.mp unmarked
    simp only [unmarked, ↓reduceIte]
    refine ⟨⟨sound, Nat.le_refl 0, by simp [none]⟩, ?_⟩
    simp [outlook, none, tokensFrom, lexed]
  · simp only [unmarked, Bool.false_eq_true, ↓reduceIte]
    refine ⟨⟨sound, by simp [atEnd], ?_⟩, ?_⟩
    · intro mark member
      have bound := steady.marks mark member
      simp only [Array.size_push]
      omega
    · simp only [outlook, lexed, Outlook.mk.injEq, and_true]
      constructor
      · exact tokensFrom_of_size_le (by simp [atEnd])
      · apply List.map_congr_left
        intro mark member
        have bound := steady.marks mark member
        simp only [tokensFrom, lexed, Array.toList_push]
        rw [List.drop_append_of_le_length (by simpa using bound)]
        simp

/-- Without a recorded token, asking goes behind blanks and comments and tells what is there. -/
theorem hasNext_fresh {lexer : Lexer} (steady : lexer.Steady)
    (beyond : lexer.recorded.size ≤ lexer.cursor) :
    ∃ buffer : Buffer,
      lexer.hasNext = (lexer.buffer.passage.front.follows, { lexer with buffer := buffer }) ∧
        buffer.Plain ∧ buffer.passage = lexer.buffer.passage.trimmed := by
  obtain ⟨plain, -, -⟩ := Buffer.skipTrivia_spec steady.sound
  have empty := Buffer.isEmpty_skipTrivia steady.sound
  have plainFilled := plain.fill 0
  have filled : (lexer.buffer.skipTrivia.fill 0).passage = lexer.buffer.passage.trimmed :=
    (Buffer.passage_fill _ 0).trans (Buffer.passage_skipTrivia steady.sound)
  have content := congrArg Passage.content filled
  rw [hasNext, if_neg (Nat.not_lt_of_le beyond)]
  rcases lexer.buffer.passage.front_cases with ⟨finished, front⟩ |
    ⟨glyph, rest, something, unknown, front⟩ | ⟨kind, text, something, chosen, -, front⟩
  · rw [finished] at empty
    have step : lexer.buffer.skipTrivia.isEmpty = (true, lexer.buffer.skipTrivia.fill 0) :=
      Prod.ext empty rfl
    simp only [step, front, Front.follows]
    exact ⟨_, rfl, plainFilled, filled⟩
  · rw [something] at empty
    have step : lexer.buffer.skipTrivia.isEmpty = (false, lexer.buffer.skipTrivia.fill 0) :=
      Prod.ext empty rfl
    obtain ⟨kind, left⟩ := Buffer.classify_spec plainFilled.sound
    have passage := (Buffer.passage_of_probed left).trans filled
    rw [show (lexer.buffer.skipTrivia.fill 0).content = _ from content, unknown] at kind
    simp only [step]
    cases classified : (lexer.buffer.skipTrivia.fill 0).classify with
    | mk found behind =>
        rw [classified] at kind left passage
        simp only at kind left passage
        subst kind
        obtain ⟨error, plainBehind, reading⟩ := Buffer.refusal_spec left.plain
        refine ⟨behind.refusal.2, ?_, plainBehind, (Buffer.passage_of_reading reading).trans passage⟩
        have line : behind.line = _ := congrArg Passage.line passage
        have name : behind.name = _ := congrArg Passage.name passage
        have front' : behind.content.head? = some glyph := by
          rw [show behind.content = _ from congrArg Passage.content passage, something]
          rfl
        simp [error, front, Front.follows, front', line, name]
  · have step : lexer.buffer.skipTrivia.isEmpty = (false, lexer.buffer.skipTrivia.fill 0) :=
      Prod.ext (empty.trans (by simpa using something)) rfl
    obtain ⟨found, left⟩ := Buffer.classify_spec plainFilled.sound
    rw [show (lexer.buffer.skipTrivia.fill 0).content = _ from content, chosen] at found
    have classified : (lexer.buffer.skipTrivia.fill 0).classify =
        (some kind, (lexer.buffer.skipTrivia.fill 0).classify.2) := Prod.ext found rfl
    simp only [step, front, Front.follows]
    rw [classified]
    exact ⟨_, rfl, left.plain, (Buffer.passage_of_probed left).trans filled⟩

/-- Without a recorded token, the next token is the one that stands in front of the buffer. -/
theorem next_fresh {lexer : Lexer} (steady : lexer.Steady)
    (beyond : lexer.recorded.size ≤ lexer.cursor) :
    ∃ buffer : Buffer, buffer.Plain ∧
      match lexer.buffer.passage.front with
      | .nothing =>
          lexer.next = (.ok none, { lexer with buffer := buffer }) ∧
            buffer.passage = lexer.buffer.passage.trimmed
      | .unknown error =>
          lexer.next = (.error error, { lexer with buffer := buffer }) ∧
            buffer.passage = lexer.buffer.passage.trimmed
      | .token lexeme rest =>
          lexer.next = (.ok (some lexeme), record { lexer with buffer := buffer } lexeme) ∧
            buffer.passage = rest := by
  obtain ⟨buffer, asked, plain, passage⟩ := hasNext_fresh steady beyond
  have unrecorded : lexer.recorded[lexer.cursor]? = none := Array.getElem?_eq_none_iff.mpr beyond
  have content : buffer.content = _ := congrArg Passage.content passage
  simp only [next, unrecorded, asked]
  rcases lexer.buffer.passage.front_cases with ⟨-, front⟩ | ⟨glyph, rest, -, -, front⟩ |
    ⟨kind, text, -, chosen, extracted, front⟩
  · simp only [front, Front.follows]
    exact ⟨buffer, plain, rfl, passage⟩
  · simp only [front, Front.follows]
    exact ⟨buffer, plain, rfl, passage⟩
  · obtain ⟨found, left⟩ := Buffer.classify_spec plain.sound
    have same := (Buffer.passage_of_probed left).trans passage
    rw [content, chosen] at found
    obtain ⟨token, plainRest, behind⟩ := Buffer.extract_spec kind left.plain.sound
    rw [left.content, content, extracted] at token behind
    simp only [front, Front.follows]
    rw [show buffer.classify = (some kind, buffer.classify.2) from Prod.ext found rfl]
    simp only
    rw [show buffer.classify.2.extract kind = (some text, (buffer.classify.2.extract kind).2) from
      Prod.ext token rfl]
    have line : buffer.classify.2.line = _ := congrArg Passage.line same
    have name : buffer.classify.2.name = _ := congrArg Passage.name same
    refine ⟨_, plainRest, by simp only [line, name], ?_⟩
    rw [← same]
    apply Buffer.passage_of_past
    rw [behind]
    rfl

theorem next_spec {lexer : Lexer} (steady : lexer.Steady) :
    lexer.next.1 = lexer.outlook.next.1 ∧ lexer.next.2.Steady ∧
      lexer.next.2.outlook = lexer.outlook.next.2 := by
  cases recorded : lexer.recorded[lexer.cursor]? with
  | some lexeme =>
      obtain ⟨bound, -⟩ := Array.getElem?_eq_some_iff.mp recorded
      simp only [next, recorded, Outlook.next, outlook, tokensFrom_of_getElem? recorded]
      exact ⟨trivial, ⟨steady.sound, bound, steady.marks⟩, rfl⟩
  | none =>
      have beyond := Array.getElem?_eq_none_iff.mp recorded
      have follows : lexer.outlook.ahead = lexer.buffer.passage.lex.1 :=
        tokensFrom_of_size_le beyond
      have finishes : lexer.outlook.ending = lexer.buffer.passage.lex.2 := rfl
      obtain ⟨buffer, plain, step⟩ := next_fresh steady beyond
      unfold Outlook.next
      rw [follows, finishes]
      cases front : lexer.buffer.passage.front with
      | nothing =>
          rw [front] at step
          simp only [step.1, Passage.lex_of_nothing front]
          exact ⟨trivial, steady.skip plain.sound, lexer.outlook_skip step.2⟩
      | unknown error =>
          rw [front] at step
          simp only [step.1, Passage.lex_of_unknown front]
          exact ⟨trivial, steady.skip plain.sound, lexer.outlook_skip step.2⟩
      | token lexeme rest =>
          rw [front] at step
          have lexed := Passage.lex_of_token front
          rw [← step.2] at lexed
          obtain ⟨steadyRest, after⟩ := record_spec steady beyond plain.sound lexed
          simp only [step.1, lexed]
          exact ⟨trivial, steadyRest, after⟩

theorem hasNext_spec {lexer : Lexer} (steady : lexer.Steady) :
    lexer.hasNext.1 = lexer.outlook.hasNext ∧ lexer.hasNext.2.Steady ∧
      lexer.hasNext.2.outlook = lexer.outlook := by
  by_cases within : lexer.cursor < lexer.recorded.size
  · have follows : lexer.outlook.ahead = _ :=
      tokensFrom_of_getElem? (Array.getElem?_eq_getElem within)
    simp only [hasNext, Outlook.hasNext, within, ↓reduceIte, follows]
    exact ⟨trivial, steady, trivial⟩
  · have beyond := Nat.le_of_not_lt within
    have follows : lexer.outlook.ahead = lexer.buffer.passage.lex.1 :=
      tokensFrom_of_size_le beyond
    have finishes : lexer.outlook.ending = lexer.buffer.passage.lex.2 := rfl
    obtain ⟨buffer, asked, plain, passage⟩ := hasNext_fresh steady beyond
    unfold Outlook.hasNext
    rw [asked, follows, finishes]
    refine ⟨?_, steady.skip plain.sound, lexer.outlook_skip passage⟩
    cases front : lexer.buffer.passage.front with
    | nothing => simp only [Passage.lex_of_nothing front, Front.follows]
    | unknown error => simp only [Passage.lex_of_unknown front, Front.follows]
    | token lexeme rest => simp only [Passage.lex_of_token front, Front.follows]

theorem openMark_spec {lexer : Lexer} (steady : lexer.Steady) :
    lexer.openMark.Steady ∧ lexer.openMark.outlook = lexer.outlook.openMark := by
  refine ⟨⟨steady.sound, steady.cursor, ?_⟩, rfl⟩
  intro mark member
  rcases List.mem_cons.mp member with rfl | outer
  · exact steady.cursor
  · exact steady.marks mark outer

theorem rewindMark_spec {lexer : Lexer} (steady : lexer.Steady) :
    lexer.rewindMark.Steady ∧ lexer.rewindMark.outlook = lexer.outlook.rewindMark := by
  unfold rewindMark Outlook.rewindMark
  cases marks : lexer.marks with
  | nil => exact ⟨steady, by simp [outlook, marks]⟩
  | cons mark others =>
      refine ⟨⟨steady.sound, steady.marks mark (by simp [marks]), ?_⟩, ?_⟩
      · simpa [marks] using steady.marks
      · simp only [outlook, marks, List.map_cons, List.head?_cons, Option.getD_some]
        rfl

theorem closeMark_spec {lexer : Lexer} (steady : lexer.Steady) :
    lexer.closeMark.Steady ∧ lexer.closeMark.outlook = lexer.outlook.closeMark := by
  unfold closeMark Outlook.closeMark
  cases outer : lexer.marks.tail with
  | nil =>
      refine ⟨⟨steady.sound, Nat.zero_le _, by simp⟩, ?_⟩
      have kept : (if 0 < lexer.cursor then lexer.recorded.drop lexer.cursor
          else lexer.recorded).toList = lexer.recorded.toList.drop lexer.cursor := by
        split
        · have size : lexer.recorded.size - lexer.cursor =
              (lexer.recorded.toList.drop lexer.cursor).length := by simp
          rw [Array.drop_eq_extract, Array.toList_extract, List.extract, size, List.take_length]
        · rename_i atStart
          rw [Nat.eq_zero_of_not_pos atStart, List.drop_zero]
      simp only [outlook, ← List.map_tail, outer, tokensFrom, kept, List.drop_zero, List.map_nil]
  | cons mark others =>
      refine ⟨⟨steady.sound, steady.cursor, ?_⟩, ?_⟩
      · intro mark member
        exact steady.marks mark (List.mem_of_mem_tail (outer ▸ member))
      · simp only [outlook, ← List.map_tail, outer]
        rfl

/-! ## All tokens of a lexer -/

theorem length_ahead_le_budget (lexer : Lexer) : lexer.outlook.ahead.length ≤ lexer.budget := by
  have lexed := lexer.buffer.passage.length_lex
  have bound := lexer.buffer.length_content
  simp only [outlook, tokensFrom, budget, List.length_append, List.length_drop,
    Array.length_toList]
  simp only [Buffer.passage] at lexed ⊢
  omega

theorem tokens_spec (limit : Nat) {lexer : Lexer} (steady : lexer.Steady)
    (enough : lexer.outlook.ahead.length < limit) :
    (tokens limit lexer).1 = lexer.outlook.ahead ∧
      (tokens limit lexer).2.1 = lexer.outlook.ending := by
  induction limit generalizing lexer with
  | zero => exact absurd enough (Nat.not_lt_zero _)
  | succ limit inductionHypothesis =>
      obtain ⟨result, steadyNext, after⟩ := next_spec steady
      unfold tokens
      cases step : lexer.next with
      | mk found next =>
          rw [step] at result steadyNext after
          simp only at result steadyNext after
          cases ahead : lexer.outlook.ahead with
          | nil =>
              cases ending : lexer.outlook.ending with
              | none => simp [result, Outlook.next, ahead, ending]
              | some error => simp [result, Outlook.next, ahead, ending]
          | cons lexeme others =>
              simp only [Outlook.next, ahead] at result after
              have rest := inductionHypothesis steadyNext (by
                rw [ahead, List.length_cons] at enough
                rw [after]
                exact Nat.lt_of_succ_lt_succ enough)
              simp only [after] at rest
              simp only [result, rest]
              exact ⟨trivial, trivial⟩

/-- Tokenizing yields the tokens that follow, and the way they end. -/
theorem tokenize_spec {lexer : Lexer} (steady : lexer.Steady) :
    lexer.tokenize.1 = lexer.outlook.ahead ∧ lexer.tokenize.2.1 = lexer.outlook.ending :=
  tokens_spec _ steady (Nat.lt_succ_of_le lexer.length_ahead_le_budget)

end Lexer

end TapeMachine
