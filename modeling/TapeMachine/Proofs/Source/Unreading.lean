import TapeMachine.Proofs.Token.Alike

/-!
Contract: putting back what has just been read.

Owns: whether a tracked insertion has been read since the checkpoint, the last character of buffers
of which that is not so, and putting back any number of ordinary characters that were read.

The character in front of the unread ones is the last of the log, or else the one at the checkpoint,
unless a tracked insertion was read: those are never logged. Where it is, putting a character back
finds in the log what the last character was before.
-/

namespace TapeMachine

/-- Whether a request sets a checkpoint or goes back to one. What it reads behind that is ordinary,
since a checkpoint makes insertions ordinary and going back cuts them out. -/
def BufferRequest.marks : BufferRequest → Bool
  | .push _ _ fold => fold
  | .checkpoint => true
  | .rewind => true
  | .probe _ => true
  | .extract _ => true
  | .classify => true
  | _ => false

namespace Buffer

/-! ## Insertions that are read -/

/-- Whether a request reads a character of a tracked insertion. -/
def readsInsertion (buffer : Buffer) : BufferRequest → Bool
  | .read => buffer.unread.head?.any Unread.inserted
  | _ => false

/-- Whether, behind some requests, a tracked insertion has been read since the checkpoint, given
whether that was so before. -/
def insertionRead (buffer : Buffer) (already : Bool) : List BufferRequest → Bool
  | [] => already
  | request :: others =>
      (buffer.respond request).2.insertionRead
        (!request.marks && (already || buffer.readsInsertion request)) others

/-- The next characters are ordinary, as far as they have been drawn; the others are so anyway. -/
def OrdinaryAhead (buffer : Buffer) (count : Nat) : Prop :=
  ∀ next ∈ buffer.unread.take count, next.inserted = false

instance (buffer : Buffer) (count : Nat) : Decidable (buffer.OrdinaryAhead count) := by
  unfold OrdinaryAhead
  infer_instance

theorem OrdinaryAhead.fill {buffer : Buffer} {count : Nat} (ordinary : buffer.OrdinaryAhead count)
    (wanted : Nat) : (buffer.fill wanted).OrdinaryAhead count := by
  obtain ⟨drawn, stream, filled, -⟩ := buffer.fill_append wanted
  intro next member
  rw [filled, List.take_append] at member
  rcases List.mem_append.mp member with there | new
  · exact ordinary next there
  · exact inserted_of_mem_ordinary (List.mem_of_mem_take new)

theorem OrdinaryAhead.front {buffer : Buffer} {count : Nat} {next : Unread} {rest : List Unread}
    (ordinary : buffer.OrdinaryAhead (count + 1)) (front : buffer.unread = next :: rest) :
    next.inserted = false ∧ (buffer.take next rest).OrdinaryAhead count := by
  rw [OrdinaryAhead, front, List.take_succ_cons] at ordinary
  exact ⟨ordinary next List.mem_cons_self, fun other member =>
    ordinary other (List.mem_cons_of_mem next member)⟩

theorem ordinaryAhead_of_head {buffer : Buffer}
    (head : buffer.unread.head?.any Unread.inserted = false) : buffer.OrdinaryAhead 1 := by
  intro next member
  cases front : buffer.unread with
  | nil => simp [front] at member
  | cons first rest => simp_all

/-! ## The last character -/

theorem anchored_pushGlyph {buffer : Buffer} (anchored : buffer.reading.Anchored) (tracked : Bool)
    (glyph : Char) : (buffer.pushGlyph tracked glyph).reading.Anchored := by
  cases tracked with
  | true => exact anchored
  | false =>
      simp only [pushGlyph, Bool.false_eq_true, ↓reduceIte]
      split
      next => exact anchored
      next =>
        split
        next => rfl
        next => exact anchored

theorem anchored_push {buffer : Buffer} (anchored : buffer.reading.Anchored) (text : List Char)
    (tracked : Bool) : (buffer.push text tracked false).reading.Anchored := by
  induction text with
  | nil => exact anchored
  | cons glyph others inductionHypothesis =>
      exact anchored_pushGlyph inductionHypothesis tracked glyph

theorem anchored_read {buffer : Buffer} (anchored : buffer.reading.Anchored)
    (ordinary : buffer.OrdinaryAhead 1) : buffer.read.2.reading.Anchored := by
  rw [read]
  split
  next => rwa [reading_fill]
  next next rest front =>
    rw [reading_take_ordinary front ((ordinary.fill 1).front front).1, reading_fill]
    exact anchored.past 1

theorem anchored_rewind (buffer : Buffer) : buffer.rewind.reading.Anchored := rfl

/-- A request keeps the last character the one of the log, or of the checkpoint, unless it reads an
insertion. -/
theorem anchored_respond {buffer : Buffer} (sound : buffer.Sound) {already : Bool}
    (anchored : already = false → buffer.reading.Anchored) {request : BufferRequest}
    (clean : (!request.marks && (already || buffer.readsInsertion request)) = false) :
    (buffer.respond request).2.reading.Anchored := by
  cases request with
  | read =>
      obtain ⟨before, head⟩ :
          already = false ∧ buffer.unread.head?.any Unread.inserted = false := by
        simpa [BufferRequest.marks, readsInsertion] using clean
      exact anchored_read (anchored before) (ordinaryAhead_of_head head)
  | push text tracked fold =>
      cases fold with
      | true => exact anchored_rewind _
      | false =>
          have before : already = false := by
            simpa [BufferRequest.marks, readsInsertion] using clean
          exact anchored_push (anchored before) text tracked
  | checkpoint => exact Reading.anchored_checkpoint buffer.reading
  | rewind => exact anchored_rewind buffer
  | probe kind =>
      have left := (probe_spec kind sound).2.reading
      exact left ▸ Reading.anchored_checkpoint buffer.reading
  | classify =>
      have left := (classify_spec sound).2.reading
      exact left ▸ Reading.anchored_checkpoint buffer.reading
  | extract kind =>
      have left := (extract_spec kind sound).2.2
      exact left ▸ (Reading.anchored_checkpoint buffer.reading).past _
  | peek offset | count | isEmpty =>
      have before : already = false := by
        simpa [BufferRequest.marks, readsInsertion] using clean
      exact (reading_fill buffer _).symm ▸ anchored before
  | remaining =>
      have before : already = false := by
        simpa [BufferRequest.marks, readsInsertion] using clean
      exact (reading_remaining buffer).symm ▸ anchored before

theorem anchored_after {buffer : Buffer} (sound : buffer.Sound) {already : Bool}
    (anchored : already = false → buffer.reading.Anchored) {requests : List BufferRequest}
    (clean : buffer.insertionRead already requests = false) :
    (buffer.after requests).reading.Anchored := by
  induction requests generalizing buffer already with
  | nil => exact anchored clean
  | cons request others inductionHypothesis =>
      exact inductionHypothesis (sound.respond request) (anchored_respond sound anchored) clean

theorem Fresh.anchored {buffer : Buffer} (fresh : buffer.Fresh) : buffer.reading.Anchored := by
  cases fresh with
  | ofText text => rfl
  | ofStream name feed chunk threshold => rfl

/-! ## Putting back -/

/-- Putting an ordinary character back that has just been taken is as if it had not been taken. -/
theorem pushGlyph_take {buffer : Buffer} (sound : buffer.Sound) (anchored : buffer.reading.Anchored)
    {next : Unread} {rest : List Unread} (front : buffer.unread = next :: rest)
    (ordinary : next.inserted = false) :
    (buffer.take next rest).pushGlyph false next.glyph = buffer := by
  have last : buffer.log.head?.or buffer.checkpointLast = buffer.last := anchored.symm
  have lineStart : startsLineAfter buffer.last = buffer.atLineStart := sound.lineStart.symm
  have same : Unread.ordinary next.glyph = next := by
    cases next
    simp_all [Unread.ordinary]
  have line (breaks : Bool) :
      (if breaks then (if breaks then buffer.line + 1 else buffer.line) - 1
        else if breaks then buffer.line + 1 else buffer.line) = buffer.line := by
    cases breaks <;> rfl
  simp only [take, pushGlyph, unconsume, ordinary, Bool.false_eq_true, ↓reduceIte, last, lineStart,
    same, line, ← front]

theorem Sound.readMany {buffer : Buffer} (sound : buffer.Sound) (count : Nat) :
    (buffer.readMany count).2.Sound := by
  induction count generalizing buffer with
  | zero => exact sound
  | succ count inductionHypothesis =>
      have stays := sound.read
      unfold Buffer.readMany
      split
      next step => rwa [step] at stays
      next step =>
        rw [step] at stays
        exact inductionHypothesis stays

/-- What reading comes to when some ordinary characters are ahead: the end of the input, or a
character that can be put back, with one ordinary character less ahead. -/
inductive ReadsBack (buffer : Buffer) (count : Nat) : Option Char × Buffer → Prop where
  | finished {behind : Buffer} (content : buffer.content = []) (alike : Alike behind buffer) :
      ReadsBack buffer count (none, behind)
  | glyph {found : Char} {behind : Buffer} (content : buffer.content = found :: behind.content)
      (sound : behind.Sound) (anchored : behind.reading.Anchored)
      (ordinary : behind.OrdinaryAhead count)
      (alike : Alike (behind.pushGlyph false found) buffer) :
      ReadsBack buffer count (some found, behind)

theorem readsBack_read {buffer : Buffer} (sound : buffer.Sound) (anchored : buffer.reading.Anchored)
    {count : Nat} (ordinary : buffer.OrdinaryAhead (count + 1)) :
    ReadsBack buffer count buffer.read := by
  have same : (buffer.fill 1).reading = buffer.reading := buffer.reading_fill 1
  have whole : (buffer.fill 1).content = buffer.content := congrArg Reading.content same
  have found := buffer.read_fst
  rw [read] at found ⊢
  cases front : (buffer.fill 1).unread with
  | nil =>
      rw [front] at found
      exact .finished (List.head?_eq_none_iff.mp found.symm) (buffer.settled_fill 1)
  | cons next rest =>
      obtain ⟨plainNext, ahead⟩ := (ordinary.fill 1).front front
      have kept : (buffer.fill 1).reading.Anchored := same.symm ▸ anchored
      have after := reading_take_ordinary front plainNext
      have back := pushGlyph_take (sound.fill 1) kept front plainNext
      refine .glyph ?_ ((sound.fill 1).take front) (after ▸ kept.past 1) ahead ?_
      · rw [← whole, content, front]
        rfl
      · rw [Alike, back, settled_fill]

/-- Reading a number of ordinary characters and putting them back leaves the buffer alike. -/
theorem push_readMany {buffer : Buffer} (sound : buffer.Sound) (anchored : buffer.reading.Anchored)
    {count : Nat} (ordinary : buffer.OrdinaryAhead count) :
    (buffer.readMany count).1 = buffer.content.take count ∧
      Alike ((buffer.readMany count).2.push (buffer.readMany count).1 false false) buffer := by
  induction count generalizing buffer with
  | zero => exact ⟨rfl, rfl⟩
  | succ count inductionHypothesis =>
      have first := readsBack_read sound anchored ordinary
      rw [readMany]
      cases step : buffer.read with
      | mk found behind =>
          rw [step] at first
          cases first with
          | finished content alike =>
              rw [content]
              exact ⟨rfl, alike⟩
          | @glyph found _ content soundBehind anchoredBehind ahead alike =>
              obtain ⟨text, rest⟩ := inductionHypothesis soundBehind anchoredBehind ahead
              refine ⟨?_, ?_⟩
              · rw [content, List.take_succ_cons, ← text]
              · -- The first character is the last one to be put back.
                show (((behind.readMany count).2.push (behind.readMany count).1 false
                  false).pushGlyph false found).settled = buffer.settled
                rw [settled_pushGlyph, rest, ← settled_pushGlyph, alike]

/-- In whatever way a buffer has been used, if no tracked insertion has been read since the
checkpoint, reading any number of ordinary characters and putting them back restores all that is
left to read, the line state and the log. From then on the buffer answers as if nothing had been
read, and goes back to the same place. -/
theorem putting_back_undoes_reading {start : Buffer} (fresh : start.Fresh)
    (history : List BufferRequest) (clean : start.insertionRead false history = false) (count : Nat)
    (ordinary : (start.after history).OrdinaryAhead count) :
    let before := start.after history
    let text := (before.readMany count).1
    let restored := (before.readMany count).2.push text false false
    text = before.content.take count ∧
      (restored.content = before.content ∧ restored.line = before.line ∧
        restored.atLineStart = before.atLineStart ∧ restored.log = before.log) ∧
      (restored.rewind.content = before.rewind.content ∧
        restored.rewind.line = before.rewind.line ∧
        restored.rewind.atLineStart = before.rewind.atLineStart) ∧
      ∀ later, (∀ request ∈ later, request.isSettled) →
        restored.responses later = before.responses later := by
  intro before text restored
  have sound : before.Sound := fresh.plain.sound.after history
  have anchored : before.reading.Anchored :=
    anchored_after fresh.plain.sound (fun _ => fresh.anchored) clean
  obtain ⟨read, alike⟩ : text = before.content.take count ∧ Alike restored before :=
    push_readMany sound anchored ordinary
  have soundRestored : restored.Sound := (sound.readMany count).push text false false
  have back : Alike restored.rewind before.rewind :=
    (alike.respond soundRestored sound (show BufferRequest.isSettled .rewind = true from rfl)).2
  have log : restored.log = before.log := (congrArg Buffer.log alike :)
  exact ⟨read, ⟨alike.content, alike.line, alike.atLineStart, log⟩,
    ⟨back.content, back.line, back.atLineStart⟩,
    fun later settled => alike.responses soundRestored sound settled⟩

/-- A stream with a line break of each kind, drawn in small pieces. -/
def brokenLines : Buffer :=
  .ofStream "lines" (.ofFeed [.bytes [0x61, 0x0A, 0x62], .bytes [0x0C, 0x0D, 0x63]] 2 0)

/-- A tracked insertion is read in part before the checkpoint, which makes an ordinary line break of
the rest; that line break is logged. -/
def insertionBefore : List BufferRequest :=
  [.read, .push ['~', '\n', '!'] true false, .read, .checkpoint, .read]

theorem putting_back_undoes_reading_brokenLines :
    brokenLines.insertionRead false insertionBefore = false ∧
      (brokenLines.after insertionBefore).OrdinaryAhead 5 ∧
      let before := brokenLines.after insertionBefore
      let text := (before.readMany 5).1
      let restored := (before.readMany 5).2.push text false false
      text = ['!', '\n', 'b', '\x0c', '\r'] ∧ (before.readMany 5).2.line = 4 ∧
        restored.line = 2 ∧ restored.atLineStart = true ∧ restored.log = ['\n'] ∧
        restored.rewind.line = before.rewind.line := by
  have clean : brokenLines.insertionRead false insertionBefore = false := by decide +kernel
  have ordinary : (brokenLines.after insertionBefore).OrdinaryAhead 5 := by decide +kernel
  obtain ⟨-, ⟨-, line, lineStart, log⟩, ⟨-, back, -⟩, -⟩ :=
    putting_back_undoes_reading (.ofStream _ _ _ _) insertionBefore clean 5 ordinary
  exact ⟨clean, ordinary, by decide +kernel, by decide +kernel, line.trans (by decide +kernel),
    lineStart.trans (by decide +kernel), log.trans (by decide +kernel), back⟩

end Buffer

end TapeMachine
