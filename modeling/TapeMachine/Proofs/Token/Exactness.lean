import TapeMachine.Proofs.Token.Request

/-!
Contract: what scanning leaves of a buffer.

Owns: buffers at the same place, the removal of a text from the front of a buffer, and the exactness
of probing, classifying and extracting.

Each kind of token is read in a way of its own: some look at the character behind the token, some
read it and put it back, some give up halfway or at the end of the input. What is left does not
depend on that: it is the place from which the scanning began, or the one behind the token.
-/

namespace TapeMachine

namespace Buffer

/-- The same characters are left to read, in the same line, at its start or not. -/
structure SamePlace (buffer other : Buffer) : Prop where
  content : other.content = buffer.content
  line : other.line = buffer.line
  lineStart : other.atLineStart = buffer.atLineStart

/-- A text has been removed from the front, and the line state is what its characters make of it. -/
structure Removes (buffer : Buffer) (text : List Char) (behind : Buffer) : Prop where
  nonempty : text ≠ []
  content : buffer.content = text ++ behind.content
  line : behind.line = buffer.line + text.countP breaksLine
  lineStart : behind.atLineStart = startsLineAfter text.getLast?

/-- What an extraction finds is what it has removed. -/
structure Extracts (buffer : Buffer) (found : Option (List Char)) (behind : Buffer) : Prop where
  miss : found = none → SamePlace buffer behind
  hit : ∀ text, found = some text → Removes buffer text behind

theorem Probed.samePlace {buffer probed : Buffer} (left : Probed buffer probed)
    (sound : buffer.Sound) : SamePlace buffer probed where
  content := left.content
  line := congrArg Reading.line left.reading
  lineStart := by
    have last : probed.last = buffer.last := congrArg Reading.last left.reading
    rw [left.plain.lineStart, sound.lineStart, last]

/-- Going past a front of the content removes it. -/
theorem removes_of_past {buffer behind : Buffer} {text : List Char} (plain : behind.Plain)
    (nonempty : text ≠ []) (front : text <+: buffer.content)
    (after : behind.reading = buffer.reading.checkpoint.past text.length) :
    Removes buffer text behind := by
  have taken : buffer.content.take text.length = text := (List.prefix_iff_eq_take.mp front).symm
  have rest : behind.content = buffer.content.drop text.length := congrArg Reading.content after
  have line : behind.line = buffer.line + (buffer.content.take text.length).countP breaksLine :=
    congrArg Reading.line after
  have last : behind.last = (buffer.content.take text.length).getLast?.or buffer.last :=
    congrArg Reading.last after
  rw [taken] at line last
  refine ⟨nonempty, ?_, line, ?_⟩
  · rw [rest]
    exact (List.prefix_iff_eq_append.mp front).symm
  · rw [plain.lineStart, last, List.getLast?_eq_some_getLast nonempty, Option.some_or]

theorem extracts_extract (kind : Kind) {buffer : Buffer} (sound : buffer.Sound) :
    Extracts buffer (buffer.extract kind).1 (buffer.extract kind).2 := by
  obtain ⟨found, plain, after⟩ := extract_spec kind sound
  refine ⟨fun nothing => ?_, fun text something => ?_⟩
  · rw [← found, nothing, Option.getD_none, List.length_nil, Reading.past_zero] at after
    have last : (buffer.extract kind).2.last = buffer.last := congrArg Reading.last after
    refine ⟨congrArg Reading.content after, congrArg Reading.line after, ?_⟩
    rw [plain.lineStart, sound.lineStart, last]
  · obtain ⟨nonempty, front⟩ := Kind.front_eq_some (found.symm.trans something)
    rw [← found, something, Option.getD_some] at after
    exact removes_of_past plain nonempty front after

/-- In whatever way a buffer has been used, probing for a token of any kind and choosing the kind in
front leave it where it is. So does an extraction that finds nothing; one that finds a text has
removed just that text from the front, and the line state follows from its characters. Extraction
finds a text exactly where probing says that there is one. -/
theorem scanning_exact {start : Buffer} (fresh : start.Fresh) (history : List BufferRequest)
    (kind : Kind) :
    let buffer := start.after history
    SamePlace buffer (buffer.probe kind).2 ∧ SamePlace buffer buffer.classify.2 ∧
      Extracts buffer (buffer.extract kind).1 (buffer.extract kind).2 ∧
      (buffer.extract kind).1.isSome = (buffer.probe kind).1 := by
  intro buffer
  have sound : buffer.Sound := fresh.plain.sound.after history
  obtain ⟨answer, probed⟩ := probe_spec kind sound
  obtain ⟨-, classified⟩ := classify_spec sound
  refine ⟨probed.samePlace sound, classified.samePlace sound, extracts_extract kind sound, ?_⟩
  rw [answer, (extract_spec kind sound).1]

/-- A stream of two lines. -/
def twoLines : Buffer :=
  .ofStream "lines" (.ofFeed [.bytes [0x61, 0x0A], .interrupted, .bytes [0x62]] 1 0)

/-- An insertion is unread, and a line break is what ends the word that begins with it. -/
def insertedWord : List BufferRequest :=
  [.read, .push ['x', '1'] true false]

theorem scanning_exact_insertedWord :
    ((twoLines.after insertedWord).extract .identifier).1 = some ['x', '1'] ∧
      Removes (twoLines.after insertedWord) ['x', '1']
        ((twoLines.after insertedWord).extract .identifier).2 ∧
      ((twoLines.after insertedWord).extract .literal).1 = none ∧
      SamePlace (twoLines.after insertedWord)
        ((twoLines.after insertedWord).extract .literal).2 := by
  have fresh : twoLines.Fresh := .ofStream _ _ _ _
  have word : ((twoLines.after insertedWord).extract .identifier).1 = some ['x', '1'] := by
    decide +kernel
  have nothing : ((twoLines.after insertedWord).extract .literal).1 = none := by decide +kernel
  exact ⟨word, (scanning_exact fresh insertedWord .identifier).2.2.1.hit _ word, nothing,
    (scanning_exact fresh insertedWord .literal).2.2.1.miss nothing⟩

end Buffer

end TapeMachine
