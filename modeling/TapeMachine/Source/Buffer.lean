import TapeMachine.Source.Stream

/-!
Contract: the characters that are not read yet, with a checkpoint to which reading can go back.

Owns: reading, looking ahead, putting text back, the line counter and the line-start flag, and the
refilling of a buffer that draws from a stream.

A text is put back in one of two ways. A tracked insertion is cut out again by the next `rewind`.
An untracked one takes back what was read where it equals the end of the log, and is ordinary
content otherwise. `rewind` restores unread content, line and line-start flag of the checkpoint.
-/

namespace TapeMachine

/-- A character that is not read yet, and whether a tracked insertion put it there. -/
structure Unread where
  glyph : Char
  inserted : Bool
deriving DecidableEq, Repr

def Unread.ordinary (glyph : Char) : Unread :=
  ⟨glyph, false⟩

/-- Line feeds and form feeds are what the line counter counts. -/
def breaksLine (glyph : Char) : Bool :=
  glyph = '\n' || glyph = '\x0c'

/-- After a line feed or a carriage return the next character starts a line. -/
def startsLine (glyph : Char) : Bool :=
  glyph = '\n' || glyph = '\r'

/-- Whether the next character starts a line, given the last one; the first one always does. -/
def startsLineAfter : Option Char → Bool
  | none => true
  | some glyph => startsLine glyph

/-- Whether a list has at least a number of members; looks at no more than that number. -/
def hasAtLeast {α : Type} : Nat → List α → Bool
  | 0, _ => true
  | _ + 1, [] => false
  | count + 1, _ :: rest => hasAtLeast count rest

theorem hasAtLeast_iff {α : Type} {count : Nat} {members : List α} :
    hasAtLeast count members = true ↔ count ≤ members.length := by
  induction members generalizing count with
  | nil => cases count <;> simp [hasAtLeast]
  | cons member members inductionHypothesis =>
      cases count with
      | zero => simp [hasAtLeast]
      | succ count => simp [hasAtLeast, inductionHypothesis]

def textSourceName : String := "String"

structure Buffer where
  name : String
  unread : List Unread
  stream : Option Stream
  /-- What was read since the checkpoint, latest first, without tracked insertions. -/
  log : List Char
  /-- Number of unread characters that tracked insertions put there. -/
  insertedCount : Nat
  line : Nat
  atLineStart : Bool
  last : Option Char
  checkpointLine : Nat
  checkpointLast : Option Char
deriving DecidableEq, Repr

namespace Buffer

def start (name : String) (unread : List Unread) (stream : Option Stream) : Buffer where
  name := name
  unread := unread
  stream := stream
  log := []
  insertedCount := 0
  line := 1
  atLineStart := true
  last := none
  checkpointLine := 1
  checkpointLast := none

def ofText (text : List Char) : Buffer :=
  start textSourceName (text.map .ordinary) none

def ofStream (name : String) (stream : Stream) : Buffer :=
  start name [] (some stream)

/-- Draws from a stream until enough characters are there or the stream is exhausted. -/
def refill (wanted : Nat) (unread : List Unread) (stream : Stream) : List Unread × Stream :=
  if finished : stream.exhausted then (unread, stream)
  else if hasAtLeast wanted unread then (unread, stream)
  else
    have := Stream.weight_pull_lt stream (by simpa using finished)
    let pulled := stream.pull
    refill wanted (unread ++ pulled.1.map .ordinary) pulled.2
termination_by stream.weight

/-- Makes sure that a number of characters, and at least the stream's threshold, is there, as far
as the stream reaches. -/
def fill (buffer : Buffer) (wanted : Nat) : Buffer :=
  match buffer.stream with
  | none => buffer
  | some stream =>
      let (unread, stream) := refill (max wanted stream.threshold) buffer.unread stream
      { buffer with unread := unread, stream := some stream }

/-- Bounds the characters that can still be read. -/
def stock (buffer : Buffer) : Nat :=
  buffer.unread.length + (buffer.stream.map Stream.stock).getD 0

theorem stock_refill (wanted : Nat) (unread : List Unread) (stream : Stream) :
    (refill wanted unread stream).1.length + (refill wanted unread stream).2.stock ≤
      unread.length + stream.stock := by
  induction unread, stream using refill.induct wanted with
  | case1 unread stream finished =>
      rw [refill]
      simp [finished]
  | case2 unread stream unfinished enough =>
      rw [refill]
      simp [unfinished, enough]
  | case3 unread stream unfinished scarce progress pulled inductionHypothesis =>
      have paid := Stream.stock_pull stream
      rw [refill]
      simp only [unfinished, scarce, Bool.false_eq_true, ↓reduceDIte, ↓reduceIte]
      simp only [pulled, List.length_append, List.length_map] at inductionHypothesis
      omega

theorem stock_fill (buffer : Buffer) (wanted : Nat) :
    (buffer.fill wanted).stock ≤ buffer.stock := by
  unfold fill
  split
  · exact Nat.le_refl _
  · rename_i stream attached
    have bound := stock_refill (max wanted stream.threshold) buffer.unread stream
    simpa [stock, attached] using bound

/-- Takes the first unread character. The buffer has been filled. -/
def take (buffer : Buffer) (next : Unread) (rest : List Unread) : Buffer :=
  { buffer with
    unread := rest
    log := if next.inserted then buffer.log else next.glyph :: buffer.log
    insertedCount := if next.inserted then buffer.insertedCount - 1 else buffer.insertedCount
    line := if breaksLine next.glyph then buffer.line + 1 else buffer.line
    atLineStart := startsLine next.glyph
    last := some next.glyph }

/-- Reads one character; `none` at the end of the input. -/
def read (buffer : Buffer) : Option Char × Buffer :=
  let filled := buffer.fill 1
  match filled.unread with
  | [] => (none, filled)
  | next :: rest => (some next.glyph, filled.take next rest)

/-- The character some places ahead, without reading. -/
def peek (buffer : Buffer) (offset : Nat) : Option Char × Buffer :=
  let filled := buffer.fill (offset + 1)
  (filled.unread[offset]?.map Unread.glyph, filled)

theorem stock_take (buffer : Buffer) {next : Unread} {rest : List Unread}
    (front : buffer.unread = next :: rest) : (buffer.take next rest).stock < buffer.stock := by
  simp [stock, take, front]

theorem stock_read (buffer : Buffer) : buffer.read.2.stock ≤ buffer.stock := by
  have bound := stock_fill buffer 1
  simp only [read]
  split
  · exact bound
  · rename_i next rest front
    exact Nat.le_of_lt (Nat.lt_of_lt_of_le (stock_take _ front) bound)

theorem stock_read_lt {buffer : Buffer} {glyph : Char} (found : buffer.read.1 = some glyph) :
    buffer.read.2.stock < buffer.stock := by
  have bound := stock_fill buffer 1
  simp only [read] at found ⊢
  split at found
  · simp at found
  · rename_i next rest front
    simp only
    exact Nat.lt_of_lt_of_le (stock_take _ front) bound

/-- Number of characters that are there, after the usual refill. -/
def count (buffer : Buffer) : Nat × Buffer :=
  let filled := buffer.fill 0
  (filled.unread.length, filled)

def isEmpty (buffer : Buffer) : Bool × Buffer :=
  let filled := buffer.fill 0
  (filled.unread.isEmpty, filled)

/-- All unread text. Drains the stream. -/
def remaining (buffer : Buffer) : List Char × Buffer :=
  match buffer.stream with
  | none => (buffer.unread.map Unread.glyph, buffer)
  | some stream =>
      let (characters, stream) := stream.drain
      let unread := buffer.unread ++ characters.map .ordinary
      (unread.map Unread.glyph, { buffer with unread := unread, stream := some stream })

/-- Takes back the reading of the character on top of the log. -/
def unconsume (buffer : Buffer) (glyph : Char) (log : List Char) : Buffer :=
  let last := log.head?.or buffer.checkpointLast
  { buffer with
    log := log
    line := if breaksLine glyph then buffer.line - 1 else buffer.line
    last := last
    atLineStart := startsLineAfter last }

def pushGlyph (buffer : Buffer) (tracked : Bool) (glyph : Char) : Buffer :=
  if tracked then
    { buffer with
      unread := ⟨glyph, true⟩ :: buffer.unread
      insertedCount := buffer.insertedCount + 1 }
  else
    let taken :=
      match buffer.log with
      | [] => buffer
      | latest :: log => if latest = glyph then buffer.unconsume glyph log else buffer
    { taken with unread := .ordinary glyph :: taken.unread }

/-- Returns to the checkpoint: what was read since then is unread again, tracked insertions are
cut out, and the line state is the one of the checkpoint. -/
def rewind (buffer : Buffer) : Buffer :=
  let kept :=
    if 0 < buffer.insertedCount then buffer.unread.filter fun next => !next.inserted
    else buffer.unread
  { buffer with
    unread := buffer.log.reverse.map .ordinary ++ kept
    log := []
    insertedCount := 0
    line := buffer.checkpointLine
    last := buffer.checkpointLast
    atLineStart := startsLineAfter buffer.checkpointLast }

/-- Puts a text in front of the unread characters; with `fold` the buffer then rewinds. -/
def push (buffer : Buffer) (text : List Char) (tracked fold : Bool) : Buffer :=
  let pushed := text.foldr (fun glyph buffer => buffer.pushGlyph tracked glyph) buffer
  if fold then pushed.rewind else pushed

/-- Makes the current place the one that `rewind` returns to. Tracked insertions that are still
unread become ordinary content. -/
def checkpoint (buffer : Buffer) : Buffer :=
  let unread :=
    if 0 < buffer.insertedCount then buffer.unread.map fun next => .ordinary next.glyph
    else buffer.unread
  { buffer with
    unread := unread
    log := []
    insertedCount := 0
    checkpointLine := buffer.line
    checkpointLast := buffer.last }

/-- Bounds the characters that can be read once the buffer has gone back to its checkpoint. -/
def reserve (buffer : Buffer) : Nat :=
  buffer.stock + buffer.log.length

theorem stock_checkpoint (buffer : Buffer) : buffer.checkpoint.stock = buffer.stock := by
  simp only [stock, checkpoint]
  split <;> simp

theorem reserve_checkpoint (buffer : Buffer) : buffer.checkpoint.reserve = buffer.stock := by
  rw [reserve, stock_checkpoint]
  simp [checkpoint]

theorem stock_rewind (buffer : Buffer) : buffer.rewind.stock ≤ buffer.reserve := by
  have kept := List.length_filter_le (fun next => !next.inserted) buffer.unread
  simp only [stock, reserve, rewind]
  split <;> simp <;> omega

theorem reserve_rewind (buffer : Buffer) : buffer.rewind.reserve ≤ buffer.reserve :=
  buffer.stock_rewind

theorem reserve_fill (buffer : Buffer) (wanted : Nat) :
    (buffer.fill wanted).reserve ≤ buffer.reserve := by
  have bound := stock_fill buffer wanted
  have log : (buffer.fill wanted).log = buffer.log := by
    unfold fill
    split <;> rfl
  simp only [reserve, log]
  omega

theorem reserve_read (buffer : Buffer) : buffer.read.2.reserve ≤ buffer.reserve := by
  have bound := reserve_fill buffer 1
  simp only [read]
  split
  · exact bound
  · rename_i next rest front
    cases inserted : next.inserted <;>
      simp [reserve, stock, take, front, inserted] at bound ⊢ <;> omega

theorem reserve_push (buffer : Buffer) (glyph : Char) :
    (buffer.push [glyph] false false).reserve ≤ buffer.reserve + 1 := by
  simp only [push, pushGlyph, List.foldr, Bool.false_eq_true, ↓reduceIte]
  split
  · simp [reserve, stock]
    omega
  · split <;> simp_all [reserve, stock, unconsume] <;> omega

/-- Putting the character on top of the log back moves it from the log to the unread ones. -/
theorem reserve_push_logged {buffer : Buffer} {glyph : Char} {log : List Char}
    (logged : buffer.log = glyph :: log) :
    (buffer.push [glyph] false false).reserve = buffer.reserve := by
  simp [push, pushGlyph, logged, reserve, stock, unconsume]
  omega

theorem reserve_push_read {buffer : Buffer} {glyph : Char}
    (found : buffer.read.1 = some glyph) :
    (buffer.read.2.push [glyph] false false).reserve ≤ buffer.reserve := by
  have bound := reserve_fill buffer 1
  simp only [read] at found ⊢
  split at found
  · simp at found
  · rename_i next rest front
    obtain rfl := Option.some.inj found
    cases inserted : next.inserted with
    | false =>
        have logged : ((buffer.fill 1).take next rest).log = next.glyph :: (buffer.fill 1).log := by
          simp [take, inserted]
        rw [reserve_push_logged logged]
        simp [reserve, stock, take, front, inserted] at bound ⊢
        omega
    | true =>
        have back := reserve_push ((buffer.fill 1).take next rest) next.glyph
        simp only [reserve, stock, take, front, inserted, ↓reduceIte, List.length_cons]
          at bound back ⊢
        omega

/-- Reads a number of characters, fewer at the end of the input. -/
def readMany : Nat → Buffer → List Char × Buffer
  | 0, buffer => ([], buffer)
  | count + 1, buffer =>
      match buffer.read with
      | (none, buffer) => ([], buffer)
      | (some glyph, buffer) =>
          let (others, buffer) := readMany count buffer
          (glyph :: others, buffer)

def readWhile (passes : Char → Bool) (buffer : Buffer) : List Char × Buffer :=
  let filled := buffer.fill 1
  match front : filled.unread with
  | [] => ([], filled)
  | next :: rest =>
      if passes next.glyph then
        have := Nat.lt_of_lt_of_le (stock_take filled front) (stock_fill buffer 1)
        let (others, buffer) := readWhile passes (filled.take next rest)
        (next.glyph :: others, buffer)
      else ([], filled)
termination_by buffer.stock

theorem stock_readWhile (passes : Char → Bool) (buffer : Buffer) :
    (readWhile passes buffer).2.stock ≤ buffer.stock := by
  have filled := stock_fill buffer 1
  rw [readWhile]
  split
  · exact filled
  · rename_i next rest front
    have taken := stock_take (buffer.fill 1) front
    split
    · have others := stock_readWhile passes ((buffer.fill 1).take next rest)
      simp only
      omega
    · exact filled
termination_by buffer.stock
decreasing_by omega

/-- Reads up to and including the first character that stops the reading, or the end of the
input. The character that stops stands apart. -/
def readUntil (stops : Char → Bool) (buffer : Buffer) : List Char × Option Char × Buffer :=
  match step : buffer.read with
  | (none, behind) => ([], none, behind)
  | (some glyph, behind) =>
      if stops glyph then ([], some glyph, behind)
      else
        have : behind.stock < buffer.stock := by
          have spent := @stock_read_lt buffer glyph (by rw [step])
          rwa [step] at spent
        let rest := readUntil stops behind
        (glyph :: rest.1, rest.2)
termination_by buffer.stock

theorem readUntil_of_none {stops : Char → Bool} {buffer behind : Buffer}
    (step : buffer.read = (none, behind)) : readUntil stops buffer = ([], none, behind) := by
  rw [readUntil]
  split <;> simp_all

theorem readUntil_of_some {stops : Char → Bool} {buffer behind : Buffer} {glyph : Char}
    (step : buffer.read = (some glyph, behind)) :
    readUntil stops buffer =
      if stops glyph then ([], some glyph, behind)
      else
        (glyph :: (readUntil stops behind).1, (readUntil stops behind).2) := by
  rw [readUntil]
  split
  · simp_all
  · rename_i found rest same
    obtain ⟨first, rfl⟩ := Prod.mk.inj (step.symm.trans same)
    obtain rfl := Option.some.inj first
    rfl

/-- Reading up to a stop uses characters up, also if the stop is put back. -/
theorem reserve_readUntil (stops : Char → Bool) (buffer : Buffer) :
    (readUntil stops buffer).2.2.reserve ≤ buffer.reserve ∧
      ∀ stop, (readUntil stops buffer).2.1 = some stop →
        ((readUntil stops buffer).2.2.push [stop] false false).reserve ≤ buffer.reserve := by
  induction buffer using readUntil.induct stops with
  | case1 buffer behind step =>
      have bound := reserve_read buffer
      rw [step] at bound
      rw [readUntil_of_none step]
      exact ⟨bound, by simp⟩
  | case2 buffer glyph behind step stopped =>
      have bound := reserve_read buffer
      have back := @reserve_push_read buffer glyph (by rw [step])
      rw [step] at bound back
      rw [readUntil_of_some step, if_pos stopped]
      refine ⟨bound, fun stop same => ?_⟩
      obtain rfl := Option.some.inj same
      exact back
  | case3 buffer glyph behind step continues shorter inductionHypothesis =>
      have bound := reserve_read buffer
      rw [step] at bound
      rw [readUntil_of_some step, if_neg continues]
      obtain ⟨rest, back⟩ := inductionHypothesis
      exact ⟨Nat.le_trans rest bound, fun stop same => Nat.le_trans (back stop same) bound⟩

theorem stock_readUntil (stops : Char → Bool) (buffer : Buffer) :
    (readUntil stops buffer).2.2.stock ≤ buffer.stock := by
  induction buffer using readUntil.induct stops with
  | case1 buffer behind step =>
      have bound := stock_read buffer
      rw [step] at bound
      rwa [readUntil_of_none step]
  | case2 buffer glyph behind step stopped =>
      have bound := stock_read buffer
      rw [step] at bound
      rwa [readUntil_of_some step, if_pos stopped]
  | case3 buffer glyph behind step continues shorter inductionHypothesis =>
      rw [readUntil_of_some step, if_neg continues]
      exact Nat.le_of_lt (Nat.lt_of_le_of_lt inductionHypothesis shorter)

end Buffer

end TapeMachine
