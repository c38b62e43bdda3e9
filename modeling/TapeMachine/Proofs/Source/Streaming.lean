import TapeMachine.Proofs.Source.Content
import TapeMachine.Proofs.Text.Utf8

/-!
Contract: buffers that differ only in how much of their content has been drawn.

Owns: the bytes that a feed delivers and the characters that a stream draws from them, the buffer of
a text that a buffer amounts to, and the operations of a buffer on it.

What has been drawn of a stream is a matter of thresholds, chunks and the feed. Settling a buffer
draws everything and forgets the stream, and every operation commutes with it.
-/

namespace TapeMachine

/-! ## What a stream draws -/

/-- The bytes that a feed delivers before it ends or fails. -/
def Feed.payload : Feed → List UInt8
  | [] => []
  | .bytes data :: rest => data ++ payload rest
  | .interrupted :: rest => payload rest
  | .failure :: _ => []

/-- A read takes bytes from the front of what is delivered; it takes none only at the end. -/
theorem Feed.payload_eq_read {limit : Nat} (positive : 0 < limit) (feed : Feed) :
    (feed.read limit).1 = [] ∧ feed.payload = [] ∨
      (feed.read limit).1 ≠ [] ∧ feed.payload = (feed.read limit).1 ++ (feed.read limit).2.payload := by
  induction feed with
  | nil => exact .inl ⟨rfl, rfl⟩
  | cons delivery rest inductionHypothesis =>
      match delivery with
      | .interrupted => exact inductionHypothesis
      | .failure => exact .inl ⟨rfl, rfl⟩
      | .bytes [] => exact inductionHypothesis
      | .bytes (byte :: data) =>
          refine .inr ⟨?_, ?_⟩
          · simp [read, Nat.ne_of_gt positive]
          · have whole := List.take_append_drop limit (byte :: data)
            simp only [payload, read]
            split
            · rename_i nothing
              rw [nothing, List.append_nil] at whole
              rw [whole]
            · rw [payload, ← List.append_assoc, whole]

/-- A stream draws the characters of its carried bytes and of those that its feed delivers. -/
theorem Stream.drain_eq (stream : Stream) (unfinished : stream.exhausted = false) :
    stream.drain.1 = Text.Utf8.decodeLossy (stream.carry ++ stream.feed.payload) := by
  induction stream using Stream.drain.induct with
  | case1 stream finished => simp [finished] at unfinished
  | case2 stream _ progress pulled inductionHypothesis =>
      have positive : 0 < max stream.chunk 1 := Nat.lt_of_lt_of_le Nat.one_pos (Nat.le_max_right _ _)
      have delivered := Feed.payload_eq_read positive stream.feed
      rw [drain_pull unfinished]
      simp only [pulled] at inductionHypothesis
      unfold pull at inductionHypothesis ⊢
      simp only [unfinished, Bool.false_eq_true, ↓reduceIte] at inductionHypothesis ⊢
      cases read : stream.feed.read (max stream.chunk 1) with
      | mk bytes rest =>
          rw [read] at delivered
          cases bytes with
          | nil =>
              obtain ⟨-, nothing⟩ | ⟨impossible, -⟩ := delivered
              · simp [nothing, drain_exhausted]
              · exact absurd rfl impossible
          | cons byte bytes =>
              obtain ⟨impossible, -⟩ | ⟨-, some⟩ := delivered
              · simp at impossible
              · rw [read] at inductionHypothesis
                simp only at some inductionHypothesis ⊢
                rw [some, ← List.append_assoc, Text.Utf8.decodeLossy_append,
                  inductionHypothesis trivial]

namespace Buffer

theorem supply_ofStream (name : String) (feed : Feed) (chunk threshold : Nat) :
    (ofStream name (.ofFeed feed chunk threshold)).supply =
      Text.Utf8.decodeLossy feed.payload :=
  Stream.drain_eq (.ofFeed feed chunk threshold) rfl

/-! ## Settled buffers -/

/-- The buffer of a text that a buffer amounts to. -/
def settled (buffer : Buffer) : Buffer :=
  { buffer with
    name := textSourceName
    unread := buffer.unread ++ buffer.supply.map .ordinary
    stream := none }

theorem settled_ofText (text : List Char) : (ofText text).settled = ofText text := by
  simp [settled, supply, ofText, start]

theorem settled_ofStream (name : String) (feed : Feed) (chunk threshold : Nat) :
    (ofStream name (.ofFeed feed chunk threshold)).settled =
      ofText (Text.Utf8.decodeLossy feed.payload) := by
  rw [settled, supply_ofStream]
  rfl

@[simp] theorem content_settled (buffer : Buffer) : buffer.settled.content = buffer.content := by
  simp [settled, content, supply]

@[simp] theorem fill_settled (buffer : Buffer) (wanted : Nat) :
    buffer.settled.fill wanted = buffer.settled := rfl

@[simp] theorem settled_fill (buffer : Buffer) (wanted : Nat) :
    (buffer.fill wanted).settled = buffer.settled := by
  obtain ⟨drawn, stream, filled, kept⟩ := buffer.fill_append wanted
  rw [settled, settled, kept, filled]
  simp

theorem settled_take {buffer : Buffer} (next : Unread) (rest : List Unread) :
    (buffer.take next rest).settled =
      buffer.settled.take next (rest ++ buffer.supply.map .ordinary) := rfl

theorem settled_read (buffer : Buffer) : buffer.read.2.settled = buffer.settled.read.2 := by
  have same := buffer.settled_fill 1
  have all : buffer.settled.unread =
      (buffer.fill 1).unread ++ (buffer.fill 1).supply.map .ordinary := by
    rw [← same]
    rfl
  rw [read, read, fill_settled]
  cases front : (buffer.fill 1).unread with
  | nil =>
      -- With nothing there after filling, nothing is to come.
      have nothing : (buffer.fill 1).supply = [] :=
        (buffer.fill_enough 1).resolve_left (by simp [front])
      rw [front, nothing] at all
      simp only [all, List.map_nil, List.append_nil, same]
  | cons next rest =>
      rw [front] at all
      simp only [all, List.cons_append]
      rw [← same]
      exact settled_take next rest

theorem settled_pushGlyph (buffer : Buffer) (tracked : Bool) (glyph : Char) :
    (buffer.pushGlyph tracked glyph).settled = buffer.settled.pushGlyph tracked glyph := by
  cases tracked with
  | true => rfl
  | false =>
      simp only [pushGlyph, Bool.false_eq_true, ↓reduceIte]
      rw [show buffer.settled.log = buffer.log from rfl]
      split
      · rfl
      · split <;> rfl

theorem settled_rewind (buffer : Buffer) : buffer.rewind.settled = buffer.settled.rewind := by
  have supply : buffer.rewind.supply = buffer.supply := rfl
  have kept : (buffer.supply.map Unread.ordinary).filter (fun next => !next.inserted) =
      buffer.supply.map .ordinary :=
    List.filter_eq_self.mpr fun next member => by simp [inserted_of_mem_ordinary member]
  rw [settled, supply, settled]
  by_cases counted : 0 < buffer.insertedCount <;> simp [rewind, counted, List.filter_append, kept]

theorem settled_checkpoint (buffer : Buffer) :
    buffer.checkpoint.settled = buffer.settled.checkpoint := by
  have supply : buffer.checkpoint.supply = buffer.supply := rfl
  have same : (buffer.supply.map Unread.ordinary).map (fun next => Unread.ordinary next.glyph) =
      buffer.supply.map .ordinary := by
    simp [Function.comp_def, Unread.ordinary]
  rw [settled, supply, settled]
  by_cases counted : 0 < buffer.insertedCount <;> simp [checkpoint, counted, same]

theorem settled_push (buffer : Buffer) (text : List Char) (tracked fold : Bool) :
    (buffer.push text tracked fold).settled = buffer.settled.push text tracked fold := by
  have pushed :
      (text.foldr (fun glyph buffer => buffer.pushGlyph tracked glyph) buffer).settled =
        text.foldr (fun glyph buffer => buffer.pushGlyph tracked glyph) buffer.settled := by
    induction text with
    | nil => rfl
    | cons glyph others inductionHypothesis =>
        rw [List.foldr_cons, settled_pushGlyph, inductionHypothesis, List.foldr_cons]
  unfold push
  cases fold with
  | true => exact (settled_rewind _).trans (congrArg rewind pushed)
  | false => exact pushed

theorem settled_remaining (buffer : Buffer) : buffer.remaining.2.settled = buffer.settled := by
  obtain ⟨stream, drawn, nothing⟩ := buffer.remaining_spec
  rw [settled, nothing, drawn]
  simp [settled]

end Buffer

end TapeMachine
