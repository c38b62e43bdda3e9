import TapeMachine.Source.Buffer

/-!
Contract: what a buffer still has to say, however little of it has been drawn from its stream.

Owns: the content of a buffer, its reading (the content together with the log and the line state),
and what filling, reading, looking ahead, putting back, checkpoints and rewinding do to it.

A buffer is sound when its counter of insertions and its line-start flag are right; every operation
keeps it so. It is plain when no tracked insertion is unread. A checkpoint and a rewinding make a
sound buffer plain, and a plain one stays plain as long as nothing is inserted.
-/

namespace TapeMachine

/-! ## The reading of a buffer -/

/-- What can be observed of a plain buffer. -/
structure Reading where
  name : String
  /-- Everything that is still to be read, whether it has been drawn or not. -/
  content : List Char
  /-- What was read since the checkpoint, latest first. -/
  log : List Char
  line : Nat
  last : Option Char
  checkpointLine : Nat
  checkpointLast : Option Char

namespace Reading

/-- Behind the next characters, or at the end if there are fewer. -/
def past (reading : Reading) (count : Nat) : Reading :=
  let text := reading.content.take count
  { reading with
    content := reading.content.drop count
    log := text.reverse ++ reading.log
    line := reading.line + text.countP breaksLine
    last := text.getLast?.or reading.last }

/-- The current place becomes the one to return to. -/
def checkpoint (reading : Reading) : Reading :=
  { reading with
    log := []
    checkpointLine := reading.line
    checkpointLast := reading.last }

def rewind (reading : Reading) : Reading :=
  { reading with
    content := reading.log.reverse ++ reading.content
    log := []
    line := reading.checkpointLine
    last := reading.checkpointLast }

/-- Takes back the reading of the latest character. -/
def back (reading : Reading) : Reading :=
  match reading.log with
  | [] => reading
  | latest :: log =>
      { reading with
        content := latest :: reading.content
        log := log
        line := if breaksLine latest then reading.line - 1 else reading.line
        last := log.head?.or reading.checkpointLast }

/-- Nothing but logged characters has been read since the checkpoint. -/
def Anchored (reading : Reading) : Prop :=
  reading.last = reading.log.head?.or reading.checkpointLast

@[simp] theorem past_content (reading : Reading) (count : Nat) :
    (reading.past count).content = reading.content.drop count := rfl

@[simp] theorem past_zero (reading : Reading) : reading.past 0 = reading := by
  simp [past]

theorem past_past (reading : Reading) (first second : Nat) :
    (reading.past first).past second = reading.past (first + second) := by
  simp [past, List.take_add, Nat.add_assoc, List.getLast?_append, Option.or_assoc]

theorem past_of_content_nil {reading : Reading} (finished : reading.content = []) (count : Nat) :
    reading.past count = reading := by
  cases reading
  simp_all [past]

@[simp] theorem checkpoint_content (reading : Reading) :
    reading.checkpoint.content = reading.content := rfl

@[simp] theorem checkpoint_name (reading : Reading) :
    reading.checkpoint.name = reading.name := rfl

@[simp] theorem checkpoint_line (reading : Reading) :
    reading.checkpoint.line = reading.line := rfl

@[simp] theorem checkpoint_checkpoint (reading : Reading) :
    reading.checkpoint.checkpoint = reading.checkpoint := rfl

@[simp] theorem checkpoint_past_checkpoint (reading : Reading) (count : Nat) :
    (reading.checkpoint.past count).checkpoint = (reading.past count).checkpoint := rfl

theorem past_checkpoint_congr {first second : Reading} (same : first.checkpoint = second.checkpoint)
    (count : Nat) : (first.past count).checkpoint = (second.past count).checkpoint := by
  rw [← checkpoint_past_checkpoint, same, checkpoint_past_checkpoint]

theorem anchored_checkpoint (reading : Reading) : reading.checkpoint.Anchored := rfl

theorem Anchored.past {reading : Reading} (anchored : reading.Anchored) (count : Nat) :
    (reading.past count).Anchored := by
  simp only [Anchored] at anchored
  simp [Anchored, Reading.past, anchored, List.head?_append, List.head?_reverse, Option.or_assoc]

/-- Taking the reading of one character back is going past one character less. -/
theorem back_past {reading : Reading} (anchored : reading.Anchored) {count : Nat}
    (within : count < reading.content.length) :
    (reading.past (count + 1)).back = reading.past count := by
  have front := List.take_succ_eq_append_getElem within
  have rest := List.drop_eq_getElem_cons within
  simp only [Anchored] at anchored
  unfold back past
  simp only [front, rest, List.reverse_append, List.reverse_cons, List.reverse_nil, List.nil_append,
    List.cons_append, List.countP_append, List.countP_cons, List.countP_nil, anchored,
    List.head?_append, List.head?_reverse, Option.or_assoc]
  by_cases breaks : breaksLine reading.content[count] = true <;> simp [breaks]

/-- Whatever was read since the checkpoint is unread again. -/
theorem rewind_past_checkpoint (reading : Reading) (count : Nat) :
    (reading.checkpoint.past count).rewind = reading.checkpoint := by
  simp [past, checkpoint, rewind]

end Reading

/-! ## Drawing from a stream -/

theorem Stream.drain_exhausted {stream : Stream} (finished : stream.exhausted = true) :
    stream.drain.1 = [] := by
  rw [Stream.drain]
  simp [finished]

theorem Stream.drain_pull {stream : Stream} (unfinished : stream.exhausted = false) :
    stream.drain.1 = stream.pull.1 ++ stream.pull.2.drain.1 := by
  rw [Stream.drain]
  simp [unfinished]

theorem Stream.exhausted_drain (stream : Stream) : stream.drain.2.exhausted = true := by
  induction stream using Stream.drain.induct with
  | case1 stream finished =>
      rw [Stream.drain]
      simp [finished]
  | case2 stream unfinished progress pulled inductionHypothesis =>
      rw [Stream.drain]
      simpa [unfinished] using inductionHypothesis

/-- A stream yields no more characters than it has in stock. -/
theorem Stream.length_drain (stream : Stream) : stream.drain.1.length ≤ stream.stock := by
  induction stream using Stream.drain.induct with
  | case1 stream finished => simp [drain_exhausted finished]
  | case2 stream unfinished progress pulled inductionHypothesis =>
      have paid := stock_pull stream
      rw [drain_pull (by simpa using unfinished), List.length_append]
      simp only [pulled] at inductionHypothesis
      omega

namespace Buffer

def supply (buffer : Buffer) : List Char :=
  (buffer.stream.map fun stream => stream.drain.1).getD []

def content (buffer : Buffer) : List Char :=
  buffer.unread.map Unread.glyph ++ buffer.supply

def reading (buffer : Buffer) : Reading where
  name := buffer.name
  content := buffer.content
  log := buffer.log
  line := buffer.line
  last := buffer.last
  checkpointLine := buffer.checkpointLine
  checkpointLast := buffer.checkpointLast

/-- The counter counts the unread characters of tracked insertions, and the line-start flag fits
the last character. -/
structure Sound (buffer : Buffer) : Prop where
  counted : buffer.insertedCount = buffer.unread.countP Unread.inserted
  lineStart : buffer.atLineStart = startsLineAfter buffer.last

/-- No tracked insertion is unread, and the line-start flag fits the last character. -/
structure Plain (buffer : Buffer) : Prop where
  ordinary : ∀ next ∈ buffer.unread, next.inserted = false
  uncounted : buffer.insertedCount = 0
  lineStart : buffer.atLineStart = startsLineAfter buffer.last

theorem Plain.sound {buffer : Buffer} (plain : buffer.Plain) : buffer.Sound where
  counted := by
    have none : buffer.unread.countP Unread.inserted = 0 :=
      List.countP_eq_zero.mpr fun next member => by simp [plain.ordinary next member]
    rw [plain.uncounted, none]
  lineStart := plain.lineStart

/-- A counter of zero is right only where nothing inserted is unread. -/
theorem Sound.plain {buffer : Buffer} (sound : buffer.Sound) (uncounted : buffer.insertedCount = 0) :
    buffer.Plain where
  ordinary := by
    intro next member
    have none := List.countP_eq_zero.mp (sound.counted.symm.trans uncounted) next member
    simpa using none
  uncounted := uncounted
  lineStart := sound.lineStart

@[simp] theorem glyph_comp_ordinary : Unread.glyph ∘ Unread.ordinary = id := rfl

@[simp] theorem inserted_comp_ordinary : Unread.inserted ∘ Unread.ordinary = fun _ => false := rfl

theorem inserted_of_mem_ordinary {text : List Char} {next : Unread}
    (member : next ∈ text.map Unread.ordinary) : next.inserted = false := by
  obtain ⟨glyph, -, rfl⟩ := List.mem_map.mp member
  rfl

theorem plain_start (name : String) (text : List Char) (stream : Option Stream) :
    (start name (text.map .ordinary) stream).Plain where
  ordinary := fun _ => inserted_of_mem_ordinary
  uncounted := rfl
  lineStart := rfl

theorem length_content (buffer : Buffer) : buffer.content.length ≤ buffer.stock := by
  cases attached : buffer.stream with
  | none => simp [content, supply, stock, attached]
  | some stream =>
      have bound := stream.length_drain
      simp only [content, supply, stock, attached, Option.map_some, Option.getD_some,
        List.length_append, List.length_map]
      omega

/-! ## Filling -/

/-- Drawing moves characters from the stream to the end of the unread ones and loses none. -/
theorem refill_append (wanted : Nat) (unread : List Unread) (stream : Stream) :
    ∃ drawn : List Char, (refill wanted unread stream).1 = unread ++ drawn.map .ordinary ∧
      stream.drain.1 = drawn ++ (refill wanted unread stream).2.drain.1 := by
  induction unread, stream using refill.induct wanted with
  | case1 unread stream finished =>
      rw [refill]
      exact ⟨[], by simp [finished]⟩
  | case2 unread stream unfinished enough =>
      rw [refill]
      exact ⟨[], by simp [unfinished, enough]⟩
  | case3 unread stream unfinished scarce progress pulled inductionHypothesis =>
      obtain ⟨drawn, appended, kept⟩ := inductionHypothesis
      have drained : stream.drain.1 = pulled.1 ++ pulled.2.drain.1 :=
        Stream.drain_pull (by simpa using unfinished)
      rw [refill]
      simp only [unfinished, scarce, Bool.false_eq_true, ↓reduceDIte, ↓reduceIte]
      exact ⟨pulled.1 ++ drawn, by simp [appended, pulled], by simp [drained, kept, pulled]⟩

/-- Drawing stops when there is enough or the stream has nothing left. -/
theorem refill_enough (wanted : Nat) (unread : List Unread) (stream : Stream) :
    wanted ≤ (refill wanted unread stream).1.length ∨
      (refill wanted unread stream).2.drain.1 = [] := by
  induction unread, stream using refill.induct wanted with
  | case1 unread stream finished =>
      rw [refill]
      simp [finished, Stream.drain_exhausted finished]
  | case2 unread stream unfinished enough =>
      rw [refill]
      simp [unfinished, enough, hasAtLeast_iff.mp enough]
  | case3 unread stream unfinished scarce progress pulled inductionHypothesis =>
      rw [refill]
      simpa only [unfinished, scarce, Bool.false_eq_true, ↓reduceDIte, ↓reduceIte]
        using inductionHypothesis

/-- Filling draws characters of the supply in and does nothing else. -/
theorem fill_append (buffer : Buffer) (wanted : Nat) :
    ∃ (drawn : List Char) (stream : Option Stream),
      buffer.fill wanted =
        { buffer with unread := buffer.unread ++ drawn.map .ordinary, stream := stream } ∧
        buffer.supply = drawn ++ (buffer.fill wanted).supply := by
  cases attached : buffer.stream with
  | none =>
      have same : buffer.fill wanted = buffer := by simp [fill, attached]
      exact ⟨[], none, by simp [same, ← attached]⟩
  | some stream =>
      obtain ⟨drawn, appended, kept⟩ :=
        refill_append (max wanted stream.threshold) buffer.unread stream
      refine ⟨drawn, some (refill (max wanted stream.threshold) buffer.unread stream).2, ?_, ?_⟩
      · simp [fill, attached, appended]
      · simpa [fill, attached, supply] using kept

@[simp] theorem reading_fill (buffer : Buffer) (wanted : Nat) :
    (buffer.fill wanted).reading = buffer.reading := by
  obtain ⟨drawn, stream, filled, kept⟩ := buffer.fill_append wanted
  have content : (buffer.fill wanted).content = buffer.content := by
    rw [Buffer.content, Buffer.content, kept, filled]
    simp
  rw [reading, content, filled]
  rfl

/-- Taking all that remains draws the whole supply in. -/
theorem remaining_spec (buffer : Buffer) :
    ∃ stream : Option Stream,
      buffer.remaining =
        (buffer.content,
          { buffer with
            unread := buffer.unread ++ buffer.supply.map .ordinary
            stream := stream }) ∧
        buffer.remaining.2.supply = [] := by
  cases attached : buffer.stream with
  | none =>
      have nothing : buffer.supply = [] := by simp [supply, attached]
      have same : buffer.remaining = (buffer.content, buffer) := by
        simp [remaining, attached, content, nothing]
      exact ⟨none, by simp [same, nothing, ← attached]⟩
  | some stream =>
      have nothing := Stream.drain_exhausted stream.exhausted_drain
      exact ⟨some stream.drain.2, by simp [remaining, content, supply, attached],
        by simpa [remaining, supply, attached] using nothing⟩

theorem reading_remaining (buffer : Buffer) : buffer.remaining.2.reading = buffer.reading := by
  obtain ⟨stream, drawn, nothing⟩ := buffer.remaining_spec
  rw [reading, reading, content, nothing, drawn]
  simp [content]

theorem fill_enough (buffer : Buffer) (wanted : Nat) :
    wanted ≤ (buffer.fill wanted).unread.length ∨ (buffer.fill wanted).supply = [] := by
  cases attached : buffer.stream with
  | none => simp [fill, attached, supply]
  | some stream =>
      have enough := refill_enough (max wanted stream.threshold) buffer.unread stream
      simp only [fill, attached, supply, Option.map_some, Option.getD_some]
      exact enough.imp_left fun bound => Nat.le_trans (Nat.le_max_left _ _) bound

theorem Sound.fill {buffer : Buffer} (sound : buffer.Sound) (wanted : Nat) :
    (buffer.fill wanted).Sound := by
  obtain ⟨drawn, stream, filled, -⟩ := buffer.fill_append wanted
  rw [filled]
  refine ⟨?_, sound.lineStart⟩
  simpa using sound.counted

theorem insertedCount_fill (buffer : Buffer) (wanted : Nat) :
    (buffer.fill wanted).insertedCount = buffer.insertedCount := by
  obtain ⟨drawn, stream, filled, -⟩ := buffer.fill_append wanted
  rw [filled]

theorem Plain.fill {buffer : Buffer} (plain : buffer.Plain) (wanted : Nat) :
    (buffer.fill wanted).Plain :=
  (plain.sound.fill wanted).plain ((buffer.insertedCount_fill wanted).trans plain.uncounted)

/-- After filling, the front of the content is the front of the unread characters. -/
theorem getElem?_content_fill (buffer : Buffer) (offset : Nat) :
    buffer.content[offset]? = ((buffer.fill (offset + 1)).unread[offset]?).map Unread.glyph := by
  have same : (buffer.fill (offset + 1)).content = buffer.content :=
    congrArg Reading.content (buffer.reading_fill (offset + 1))
  rw [← same, content]
  rcases buffer.fill_enough (offset + 1) with enough | nothing
  · rw [List.getElem?_append_left (by rw [List.length_map]; omega), List.getElem?_map]
  · rw [nothing, List.append_nil, List.getElem?_map]

/-! ## Reading and looking ahead -/

theorem peek_fst (buffer : Buffer) (offset : Nat) :
    (buffer.peek offset).1 = buffer.content[offset]? :=
  (buffer.getElem?_content_fill offset).symm

@[simp] theorem reading_peek (buffer : Buffer) (offset : Nat) :
    (buffer.peek offset).2.reading = buffer.reading :=
  buffer.reading_fill (offset + 1)

theorem Sound.peek {buffer : Buffer} (sound : buffer.Sound) (offset : Nat) :
    (buffer.peek offset).2.Sound :=
  sound.fill (offset + 1)

theorem Plain.peek {buffer : Buffer} (plain : buffer.Plain) (offset : Nat) :
    (buffer.peek offset).2.Plain :=
  plain.fill (offset + 1)

/-- Taking the front goes past one character; only the log depends on whether it was inserted. -/
theorem checkpoint_reading_take {buffer : Buffer} {next : Unread} {rest : List Unread}
    (front : buffer.unread = next :: rest) :
    (buffer.take next rest).reading.checkpoint = (buffer.reading.past 1).checkpoint := by
  by_cases breaks : breaksLine next.glyph = true <;>
    simp [take, reading, Reading.past, Reading.checkpoint, content, supply, front, breaks]

/-- Taking an ordinary character goes past it. -/
theorem reading_take_ordinary {buffer : Buffer} {next : Unread} {rest : List Unread}
    (front : buffer.unread = next :: rest) (ordinary : next.inserted = false) :
    (buffer.take next rest).reading = buffer.reading.past 1 := by
  by_cases breaks : breaksLine next.glyph = true <;>
    simp [take, reading, Reading.past, content, supply, front, ordinary, breaks]

/-- Taking the front of a plain buffer goes past one character. -/
theorem reading_take {buffer : Buffer} (plain : buffer.Plain) {next : Unread}
    {rest : List Unread} (front : buffer.unread = next :: rest) :
    (buffer.take next rest).reading = buffer.reading.past 1 :=
  reading_take_ordinary front (plain.ordinary next (by simp [front]))

theorem Sound.take {buffer : Buffer} (sound : buffer.Sound) {next : Unread} {rest : List Unread}
    (front : buffer.unread = next :: rest) : (buffer.take next rest).Sound where
  counted := by
    have counted := sound.counted
    cases inserted : next.inserted <;>
      simp [Buffer.take, counted, front, inserted]
  lineStart := rfl

theorem Plain.take {buffer : Buffer} (plain : buffer.Plain) {next : Unread} {rest : List Unread}
    (front : buffer.unread = next :: rest) : (buffer.take next rest).Plain :=
  (plain.sound.take front).plain (by simp [Buffer.take, plain.uncounted])

theorem read_fst (buffer : Buffer) : buffer.read.1 = buffer.content.head? := by
  have front := buffer.getElem?_content_fill 0
  rw [List.head?_eq_getElem?, front, read]
  split <;> simp_all

theorem reading_read {buffer : Buffer} (plain : buffer.Plain) :
    buffer.read.2.reading = buffer.reading.past 1 := by
  have front := buffer.getElem?_content_fill 0
  rw [read]
  split
  · rename_i finished
    have empty : buffer.reading.content = [] := by
      rw [finished] at front
      simpa [reading] using front
    rw [reading_fill, Reading.past_of_content_nil empty]
  · rename_i next rest present
    rw [reading_take (plain.fill 1) present, reading_fill]

theorem Sound.read {buffer : Buffer} (sound : buffer.Sound) : buffer.read.2.Sound := by
  rw [Buffer.read]
  split
  · exact sound.fill 1
  · rename_i next rest present
    exact (sound.fill 1).take present

theorem Plain.read {buffer : Buffer} (plain : buffer.Plain) : buffer.read.2.Plain := by
  rw [Buffer.read]
  split
  · exact plain.fill 1
  · rename_i next rest present
    exact (plain.fill 1).take present

theorem content_of_past {buffer rest : Buffer} {count : Nat}
    (after : rest.reading = buffer.reading.past count) :
    rest.content = buffer.content.drop count :=
  congrArg Reading.content after

theorem read_of_nil {buffer : Buffer} (plain : buffer.Plain) (finished : buffer.content = []) :
    ∃ rest, buffer.read = (none, rest) ∧ rest.Plain ∧ rest.reading = buffer.reading := by
  have front := buffer.read_fst
  have after := reading_read plain
  rw [finished] at front
  rw [Reading.past_of_content_nil finished] at after
  exact ⟨buffer.read.2, Prod.ext front rfl, plain.read, after⟩

theorem read_of_cons {buffer : Buffer} (plain : buffer.Plain) {glyph : Char} {tail : List Char}
    (front : buffer.content = glyph :: tail) :
    ∃ rest, buffer.read = (some glyph, rest) ∧ rest.Plain ∧
      rest.reading = buffer.reading.past 1 ∧ rest.content = tail := by
  have found := buffer.read_fst
  have after := reading_read plain
  rw [front] at found
  refine ⟨buffer.read.2, Prod.ext found rfl, plain.read, after, ?_⟩
  rw [content_of_past after, front]
  rfl

/-- Reading while a test passes goes behind the longest such front of the content. -/
theorem readWhile_spec (passes : Char → Bool) {buffer : Buffer} (sound : buffer.Sound) :
    (buffer.readWhile passes).1 = buffer.content.takeWhile passes ∧
      (buffer.readWhile passes).2.reading.checkpoint =
        (buffer.reading.past (buffer.content.takeWhile passes).length).checkpoint ∧
      (buffer.readWhile passes).2.Sound := by
  have same : (buffer.fill 1).reading = buffer.reading := buffer.reading_fill 1
  have content : (buffer.fill 1).content = buffer.content := congrArg Reading.content same
  rw [readWhile]
  split
  · rename_i finished
    have empty : buffer.content = [] := by
      have front := buffer.getElem?_content_fill 0
      rw [finished] at front
      simpa using front
    simp [empty, sound.fill 1]
  · rename_i next rest front
    have cons : buffer.content = next.glyph :: ((buffer.fill 1).take next rest).content := by
      rw [← content, Buffer.content, front]
      rfl
    have taken := checkpoint_reading_take front
    split
    · rename_i passing
      have filled := stock_fill buffer 1
      have spent := stock_take (buffer.fill 1) front
      obtain ⟨text, after, stays⟩ := readWhile_spec passes ((sound.fill 1).take front)
      rw [Reading.past_checkpoint_congr taken, same, Reading.past_past, Nat.add_comm] at after
      refine ⟨?_, ?_, stays⟩
      · simp only [cons, List.takeWhile_cons, passing, ↓reduceIte, text]
      · rw [cons, List.takeWhile_cons, if_pos passing, List.length_cons]
        exact after
    · rename_i failing
      rw [cons, List.takeWhile_cons, if_neg failing]
      exact ⟨rfl, by simp, sound.fill 1⟩
termination_by buffer.stock
decreasing_by omega

/-- Reading up to a stop goes behind the stop, which is the first character that is one. -/
theorem readUntil_spec (stops : Char → Bool) {buffer : Buffer} (plain : buffer.Plain) :
    (buffer.readUntil stops).1 = buffer.content.takeWhile (!stops ·) ∧
      (buffer.readUntil stops).2.1 = (buffer.content.dropWhile (!stops ·)).head? ∧
      (buffer.readUntil stops).2.2.reading =
        buffer.reading.past ((buffer.readUntil stops).1.length +
          (buffer.readUntil stops).2.1.toList.length) ∧
      (buffer.readUntil stops).2.2.Plain := by
  induction buffer using readUntil.induct stops with
  | case1 buffer behind step =>
      have finished : buffer.content = [] := by
        have front := buffer.read_fst
        rw [step] at front
        exact List.head?_eq_none_iff.mp front.symm
      have after := reading_read plain
      have stays := plain.read
      rw [Reading.past_of_content_nil finished, step] at after
      rw [step] at stays
      rw [readUntil_of_none step, finished]
      exact ⟨rfl, rfl, by simpa using after, stays⟩
  | case2 buffer glyph behind step stopped =>
      have front := buffer.read_fst
      have after := reading_read plain
      have stays := plain.read
      rw [step] at front after stays
      obtain ⟨tail, content⟩ := List.head?_eq_some_iff.mp front.symm
      rw [readUntil_of_some step, if_pos stopped, content]
      exact ⟨by simp [stopped], by simp [stopped], after, stays⟩
  | case3 buffer glyph behind step continues shorter inductionHypothesis =>
      have front := buffer.read_fst
      have after := reading_read plain
      have stays := plain.read
      rw [step] at front after stays
      obtain ⟨tail, content⟩ := List.head?_eq_some_iff.mp front.symm
      have rest : behind.content = tail := by
        rw [content_of_past after, content]
        rfl
      obtain ⟨text, stop, further, plainRest⟩ := inductionHypothesis stays
      rw [rest] at text stop
      rw [after, Reading.past_past] at further
      rw [readUntil_of_some step, if_neg continues, content]
      refine ⟨by simp [continues, text], by simp [continues, stop], ?_, plainRest⟩
      simp only [further, List.length_cons]
      congr 1
      omega

/-! ## Putting back -/

theorem Sound.pushGlyph {buffer : Buffer} (sound : buffer.Sound) (tracked : Bool) (glyph : Char) :
    (buffer.pushGlyph tracked glyph).Sound := by
  have counted := sound.counted
  cases tracked with
  | true => exact ⟨by simp [Buffer.pushGlyph, counted], sound.lineStart⟩
  | false =>
      simp only [Buffer.pushGlyph, Bool.false_eq_true, ↓reduceIte]
      split
      · exact ⟨by simpa [Unread.ordinary] using counted, sound.lineStart⟩
      · split
        · exact ⟨by simpa [Unread.ordinary, unconsume] using counted, rfl⟩
        · exact ⟨by simpa [Unread.ordinary] using counted, sound.lineStart⟩

/-- Putting the latest logged character back takes its reading back. -/
theorem reading_push_logged {buffer : Buffer} {glyph : Char} {log : List Char}
    (logged : buffer.log = glyph :: log) :
    (buffer.push [glyph] false false).reading = buffer.reading.back := by
  simp [push, pushGlyph, logged, reading, Reading.back, unconsume, content, supply,
    Unread.ordinary]

theorem Plain.push {buffer : Buffer} (plain : buffer.Plain) (glyph : Char) :
    (buffer.push [glyph] false false).Plain := by
  refine (plain.sound.pushGlyph false glyph).plain ?_
  have uncounted := plain.uncounted
  simp only [Buffer.pushGlyph, Bool.false_eq_true, ↓reduceIte]
  split
  · exact uncounted
  · split <;> exact uncounted

/-! ## Checkpoints -/

theorem Sound.checkpoint {buffer : Buffer} (sound : buffer.Sound) : buffer.checkpoint.Plain where
  ordinary := by
    intro next member
    simp only [Buffer.checkpoint] at member
    split at member
    · obtain ⟨other, -, rfl⟩ := List.mem_map.mp member
      rfl
    · rename_i uncounted
      exact (sound.plain (Nat.eq_zero_of_not_pos uncounted)).ordinary next member
  uncounted := rfl
  lineStart := sound.lineStart

theorem Plain.checkpoint {buffer : Buffer} (plain : buffer.Plain) : buffer.checkpoint.Plain :=
  plain.sound.checkpoint

theorem reading_checkpoint (buffer : Buffer) :
    buffer.checkpoint.reading = buffer.reading.checkpoint := by
  have content : buffer.checkpoint.content = buffer.content := by
    simp only [Buffer.content, supply, Buffer.checkpoint]
    split
    · simp [Function.comp_def, Unread.ordinary]
    · rfl
  rw [reading, content]
  rfl

/-- Going back twice is going back once. -/
@[simp] theorem rewind_rewind (buffer : Buffer) : buffer.rewind.rewind = buffer.rewind := by
  simp [rewind]

theorem reading_rewind {buffer : Buffer} (plain : buffer.Plain) :
    buffer.rewind.reading = buffer.reading.rewind := by
  simp [rewind, reading, Reading.rewind, content, supply, plain.uncounted]

/-- What going back to the checkpoint keeps of the unread characters. -/
theorem rewind_unread {buffer : Buffer} (sound : buffer.Sound) :
    buffer.rewind.unread =
      buffer.log.reverse.map .ordinary ++ buffer.unread.filter fun next => !next.inserted := by
  simp only [rewind]
  split
  · rfl
  · rename_i uncounted
    have plain := sound.plain (Nat.eq_zero_of_not_pos uncounted)
    rw [List.filter_eq_self.mpr fun next member => by simp [plain.ordinary next member]]

theorem Sound.rewind {buffer : Buffer} (sound : buffer.Sound) : buffer.rewind.Plain where
  ordinary := by
    intro next member
    rw [rewind_unread sound] at member
    rcases List.mem_append.mp member with logged | kept
    · exact inserted_of_mem_ordinary logged
    · simpa using (List.mem_filter.mp kept).2
  uncounted := rfl
  lineStart := rfl

theorem Plain.rewind {buffer : Buffer} (plain : buffer.Plain) : buffer.rewind.Plain :=
  plain.sound.rewind

theorem Sound.push {buffer : Buffer} (sound : buffer.Sound) (text : List Char)
    (tracked fold : Bool) : (buffer.push text tracked fold).Sound := by
  have pushed : (text.foldr (fun glyph buffer => buffer.pushGlyph tracked glyph) buffer).Sound := by
    induction text with
    | nil => exact sound
    | cons glyph others inductionHypothesis => exact inductionHypothesis.pushGlyph tracked glyph
  unfold Buffer.push
  cases fold with
  | true => exact pushed.rewind.sound
  | false => exact pushed

end Buffer

end TapeMachine
