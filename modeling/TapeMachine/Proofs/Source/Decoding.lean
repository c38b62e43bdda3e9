import TapeMachine.Proofs.Source.Streaming
import TapeMachine.Proofs.Text.Segmentation
import TapeMachine.Proofs.Token.Request

/-!
Contract: the characters that a buffer yields of a stream.

Owns: the requests that read or only look, the text that a buffer yields to them, and the agreement
of a buffer that draws from a stream with decoding all that the stream delivers in one piece.
-/

namespace TapeMachine

/-- Whether a request reads the next character, or looks at what is there and reads nothing. -/
def BufferRequest.isReading : BufferRequest → Bool
  | .read => true
  | .peek _ => true
  | .count => true
  | .isEmpty => true
  | .remaining => true
  | _ => false

/-- Nothing behind a failing read is delivered. -/
theorem Feed.payload_failure (feed later : Feed) :
    Feed.payload (feed ++ .failure :: later) = feed.payload := by
  induction feed with
  | nil => rfl
  | cons delivery rest inductionHypothesis =>
      cases delivery with
      | bytes data => exact congrArg (data ++ ·) inductionHypothesis
      | interrupted => exact inductionHypothesis
      | failure => rfl

namespace Buffer

/-- Reading one character after the other yields a text and then nothing, whatever is looked at in
between. -/
def Yields (buffer : Buffer) (text : List Char) : Prop :=
  ∀ requests : List BufferRequest, (∀ request ∈ requests, request.isReading = true) →
    (buffer.after requests).read.1 = text[requests.count .read]?

theorem Plain.remaining {buffer : Buffer} (plain : buffer.Plain) : buffer.remaining.2.Plain := by
  obtain ⟨stream, drawn, -⟩ := buffer.remaining_spec
  exact plain.sound.remaining.plain (by rw [drawn]; exact plain.uncounted)

/-- A request that reads goes past one character, and looking past none. -/
theorem reading_respond {buffer : Buffer} (plain : buffer.Plain) {request : BufferRequest}
    (reads : request.isReading = true) :
    (buffer.respond request).2.Plain ∧
      (buffer.respond request).2.reading = buffer.reading.past ([request].count .read) := by
  cases request with
  | read => exact ⟨plain.read, reading_read plain⟩
  | peek offset => exact ⟨plain.peek offset, by simp [respond]⟩
  | count => exact ⟨plain.fill 0, by simp [respond, Buffer.count]⟩
  | isEmpty => exact ⟨plain.fill 0, by simp [respond, Buffer.isEmpty]⟩
  | remaining => exact ⟨plain.remaining, by simp [respond, reading_remaining]⟩
  | _ => simp [BufferRequest.isReading] at reads

theorem reading_after {buffer : Buffer} (plain : buffer.Plain) {requests : List BufferRequest}
    (reads : ∀ request ∈ requests, request.isReading = true) :
    (buffer.after requests).reading = buffer.reading.past (requests.count .read) := by
  induction requests generalizing buffer with
  | nil => exact (Reading.past_zero _).symm
  | cons request others inductionHypothesis =>
      obtain ⟨first, rest⟩ := List.forall_mem_cons.mp reads
      obtain ⟨plainBehind, behind⟩ := reading_respond plain first
      rw [← List.singleton_append, List.count_append, ← Reading.past_past, ← behind]
      exact inductionHypothesis plainBehind rest

/-- A buffer without insertions yields its content. -/
theorem Plain.yields {buffer : Buffer} (plain : buffer.Plain) : buffer.Yields buffer.content := by
  intro requests reads
  rw [read_fst, content_of_past (reading_after plain reads), List.head?_drop]

/-- The bytes that a stream delivers before it ends or fails stand for one text, and a buffer yields
this text, whatever the chunks, the threshold and the interruptions are and wherever the deliveries
cut a sequence. What a stream would deliver behind a failing read makes no difference. -/
theorem stream_yields_decoding (name : String) (feed : Feed) (chunk threshold : Nat) :
    ∃ text, Text.Utf8.Decodes feed.payload text ∧
      (∀ other, Text.Utf8.Decodes feed.payload other → other = text) ∧
      (ofStream name (.ofFeed feed chunk threshold)).Yields text ∧
      ∀ later, (ofStream name (.ofFeed (feed ++ .failure :: later) chunk threshold)).Yields text := by
  have yields (source : Feed) (same : source.payload = feed.payload) :
      (ofStream name (.ofFeed source chunk threshold)).Yields
        (Text.Utf8.decodeLossy feed.payload) := by
    have content : (ofStream name (.ofFeed source chunk threshold)).content =
        Text.Utf8.decodeLossy feed.payload := by
      rw [← same]
      exact supply_ofStream name source chunk threshold
    rw [← content]
    exact (plain_start name [] _).yields
  refine ⟨Text.Utf8.decodeLossy feed.payload, Text.Utf8.decodes_decodeLossy _, ?_, ?_, ?_⟩
  · intro other decodes
    exact (Text.Utf8.decodes_iff.mp decodes).symm
  · exact yields feed rfl
  · intro later
    exact yields _ (feed.payload_failure later)

end Buffer

end TapeMachine
