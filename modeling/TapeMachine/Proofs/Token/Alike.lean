import TapeMachine.Proofs.Source.Streaming
import TapeMachine.Proofs.Token.Cursor

/-!
Contract: buffers and lexers that cannot be told apart, except for the names of their sources.

Owns: buffers that amount to the same buffer of a text, the requests that they answer alike, tokens
and errors under another name, and the agreement of lexers over such buffers.
-/

namespace TapeMachine

/-- Whether the answer to a request is a matter of the content, and not of how much of it has been
drawn. -/
def BufferRequest.isSettled : BufferRequest → Bool
  | .count => false
  | .isEmpty => false
  | _ => true

/-- The buffer of a text with a reading. -/
def Reading.buffer (reading : Reading) : Buffer where
  name := textSourceName
  unread := reading.content.map .ordinary
  stream := none
  log := reading.log
  insertedCount := 0
  line := reading.line
  atLineStart := startsLineAfter reading.last
  last := reading.last
  checkpointLine := reading.checkpointLine
  checkpointLast := reading.checkpointLast

namespace Buffer

/-- Two buffers amount to the same buffer of a text. -/
def Alike (first second : Buffer) : Prop :=
  first.settled = second.settled

/-- The answer to each request, with the line and the line-start flag behind it. -/
def responses (buffer : Buffer) : List BufferRequest → List (BufferAnswer × Nat × Bool)
  | [] => []
  | request :: others =>
      let behind := (buffer.respond request).2
      ((buffer.respond request).1, behind.line, behind.atLineStart) :: behind.responses others

/-- A plain buffer amounts to what its reading says. -/
theorem Plain.settled_eq {buffer : Buffer} (plain : buffer.Plain) :
    buffer.settled = buffer.reading.buffer := by
  have ordinary : buffer.unread.map (Unread.ordinary ∘ Unread.glyph) = buffer.unread := by
    rw [List.map_congr_left (g := id), List.map_id]
    intro next member
    have inserted := plain.ordinary next member
    cases next
    simp_all [Unread.ordinary]
  have unread : buffer.content.map .ordinary = buffer.unread ++ buffer.supply.map .ordinary := by
    rw [content, List.map_append, List.map_map, ordinary]
  simp [settled, Reading.buffer, reading, unread, plain.uncounted, plain.lineStart]

namespace Alike

variable {first second : Buffer}

theorem content (alike : Alike first second) : first.content = second.content := by
  rw [← content_settled, alike, content_settled]

theorem line (alike : Alike first second) : first.line = second.line :=
  (congrArg Buffer.line alike :)

theorem atLineStart (alike : Alike first second) : first.atLineStart = second.atLineStart :=
  (congrArg Buffer.atLineStart alike :)

/-- Buffers that are alike have the same reading under two names. -/
theorem reading (alike : Alike first second) :
    first.reading = { second.reading with name := first.name } := by
  have log : first.log = second.log := (congrArg Buffer.log alike :)
  have last : first.last = second.last := (congrArg Buffer.last alike :)
  have checkpointLine : first.checkpointLine = second.checkpointLine :=
    (congrArg Buffer.checkpointLine alike :)
  have checkpointLast : first.checkpointLast = second.checkpointLast :=
    (congrArg Buffer.checkpointLast alike :)
  simp [Buffer.reading, alike.content, alike.line, log, last, checkpointLine, checkpointLast]

theorem of_reading {name : String} (plainFirst : first.Plain) (plainSecond : second.Plain)
    (same : first.reading = { second.reading with name := name }) : Alike first second := by
  rw [Alike, plainFirst.settled_eq, plainSecond.settled_eq, same]
  rfl

/-- What probing leaves of buffers that are alike is alike. -/
theorem probed (alike : Alike first second) {firstLeft secondLeft : Buffer}
    (left : Probed first firstLeft) (right : Probed second secondLeft) :
    Alike firstLeft secondLeft := by
  apply of_reading left.plain right.plain
  rw [left.reading, right.reading, alike.reading]
  rfl

/-- Requests that are answered out of the content get the same answer from buffers that are alike,
and leave them alike. -/
theorem respond (alike : Alike first second) (soundFirst : first.Sound)
    (soundSecond : second.Sound) {request : BufferRequest} (settled : request.isSettled) :
    (first.respond request).1 = (second.respond request).1 ∧
      Alike (first.respond request).2 (second.respond request).2 := by
  have content := alike.content
  cases request with
  | count => simp [BufferRequest.isSettled] at settled
  | isEmpty => simp [BufferRequest.isSettled] at settled
  | read =>
      refine ⟨?_, ?_⟩
      · simp only [Buffer.respond, read_fst, content]
      · exact (settled_read first).trans
          ((congrArg (fun buffer => buffer.read.2) alike).trans (settled_read second).symm)
  | peek offset =>
      refine ⟨?_, ?_⟩
      · simp only [Buffer.respond, peek_fst, content]
      · exact (settled_fill first _).trans (alike.trans (settled_fill second _).symm)
  | push text tracked fold =>
      exact ⟨rfl, (settled_push first text tracked fold).trans
        ((congrArg (fun buffer => buffer.push text tracked fold) alike).trans
          (settled_push second text tracked fold).symm)⟩
  | checkpoint =>
      exact ⟨rfl, (settled_checkpoint first).trans
        ((congrArg Buffer.checkpoint alike).trans (settled_checkpoint second).symm)⟩
  | rewind =>
      exact ⟨rfl, (settled_rewind first).trans
        ((congrArg Buffer.rewind alike).trans (settled_rewind second).symm)⟩
  | remaining =>
      obtain ⟨_, drawnFirst, -⟩ := first.remaining_spec
      obtain ⟨_, drawnSecond, -⟩ := second.remaining_spec
      refine ⟨?_, ?_⟩
      · simp only [Buffer.respond, drawnFirst, drawnSecond, content]
      · exact (settled_remaining first).trans (alike.trans (settled_remaining second).symm)
  | probe kind =>
      obtain ⟨foundFirst, left⟩ := probe_spec kind soundFirst
      obtain ⟨foundSecond, right⟩ := probe_spec kind soundSecond
      exact ⟨by simp only [Buffer.respond, foundFirst, foundSecond, content],
        alike.probed left right⟩
  | extract kind =>
      obtain ⟨foundFirst, plainFirst, behindFirst⟩ := extract_spec kind soundFirst
      obtain ⟨foundSecond, plainSecond, behindSecond⟩ := extract_spec kind soundSecond
      refine ⟨by simp only [Buffer.respond, foundFirst, foundSecond, content], ?_⟩
      apply of_reading plainFirst plainSecond
      rw [behindFirst, behindSecond, alike.reading, content]
      rfl
  | classify =>
      obtain ⟨foundFirst, left⟩ := classify_spec soundFirst
      obtain ⟨foundSecond, right⟩ := classify_spec soundSecond
      exact ⟨by simp only [Buffer.respond, foundFirst, foundSecond, content],
        alike.probed left right⟩

theorem responses (alike : Alike first second) (soundFirst : first.Sound)
    (soundSecond : second.Sound) {requests : List BufferRequest}
    (settled : ∀ request ∈ requests, request.isSettled) :
    first.responses requests = second.responses requests := by
  induction requests generalizing first second with
  | nil => rfl
  | cons request others inductionHypothesis =>
      obtain ⟨answer, behind⟩ := alike.respond soundFirst soundSecond (settled request (by simp))
      have rest := inductionHypothesis behind (soundFirst.respond request)
        (soundSecond.respond request) fun other member => settled other (by simp [member])
      simp only [Buffer.responses, answer, behind.line, behind.atLineStart, rest]

end Alike

theorem alike_ofStream (name : String) {feed : Feed} {text : List Char}
    (delivers : feed.payload = text.flatMap String.utf8EncodeChar) (chunk threshold : Nat) :
    Alike (ofStream name (.ofFeed feed chunk threshold)) (ofText text) := by
  rw [Alike, settled_ofStream, delivers, Text.Utf8.decodeLossy_utf8EncodeChar, settled_ofText]

end Buffer

end TapeMachine
