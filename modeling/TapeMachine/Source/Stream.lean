import TapeMachine.Text.Utf8

/-!
Contract: characters out of a source of bytes that answers one read at a time.

Owns: what a byte source will still answer, one read of at most a chunk of bytes, and the decoding
of what arrives, with the bytes of a split sequence carried to the next read.

An interrupted read is tried again. A failing read ends the input for good, like its end does; an
unfinished sequence at that point is one error.
-/

namespace TapeMachine

/-- One thing a byte source will answer when it is asked. -/
inductive Delivery where
  /-- Bytes to hand over, as many at a time as a read asks for. -/
  | bytes (data : List UInt8)
  | interrupted
  | failure
deriving DecidableEq, Repr

/-- Everything a byte source will still answer, in order; after that it is at its end. -/
abbrev Feed := List Delivery

namespace Feed

/-- One read of at most `limit` bytes, tried again after an interruption: the bytes, none when the
feed is at its end or fails, and what the feed answers afterwards. -/
def read (limit : Nat) : Feed → List UInt8 × Feed
  | [] => ([], [])
  | .interrupted :: rest => read limit rest
  | .failure :: rest => ([], rest)
  | .bytes [] :: rest => read limit rest
  | .bytes (byte :: data) :: rest =>
      let unread := (byte :: data).drop limit
      ((byte :: data).take limit, if unread = [] then rest else .bytes unread :: rest)

/-- Bytes that the feed holds, also those behind a failure. -/
def byteCount : Feed → Nat
  | [] => 0
  | .bytes data :: rest => data.length + byteCount rest
  | .interrupted :: rest => byteCount rest
  | .failure :: rest => byteCount rest

theorem byteCount_read (limit : Nat) (feed : Feed) :
    (read limit feed).1.length + (read limit feed).2.byteCount ≤ feed.byteCount := by
  induction feed with
  | nil => simp [read, byteCount]
  | cons delivery rest inductionHypothesis =>
      match delivery with
      | .interrupted => simpa [read, byteCount] using inductionHypothesis
      | .failure => simp [read, byteCount]
      | .bytes [] => simpa [read, byteCount] using inductionHypothesis
      | .bytes (byte :: data) =>
          simp only [read, byteCount]
          split
          · exact Nat.add_le_add_right (List.length_take_le' _ _) _
          · simp only [byteCount, List.length_take, List.length_drop]
            omega

end Feed

/-- A byte source together with what is needed to draw characters from it. -/
structure Stream where
  feed : Feed
  /-- Most bytes asked for in one read; zero acts as one. -/
  chunk : Nat
  /-- As many characters are kept in stock as long as the source lasts. -/
  threshold : Nat
  /-- Bytes of a sequence whose end has not arrived. -/
  carry : List UInt8
  exhausted : Bool
deriving DecidableEq, Repr

namespace Stream

def ofFeed (feed : Feed) (chunk threshold : Nat) : Stream where
  feed := feed
  chunk := chunk
  threshold := threshold
  carry := []
  exhausted := false

/-- Bounds the reads that are still to come. -/
def weight (stream : Stream) : Nat :=
  stream.feed.byteCount + if stream.exhausted then 0 else 1

/-- Bounds the characters that are still to come. -/
def stock (stream : Stream) : Nat :=
  if stream.exhausted then 0 else stream.carry.length + stream.feed.byteCount

/-- One read and the characters that it completes. -/
def pull (stream : Stream) : List Char × Stream :=
  if stream.exhausted then ([], stream)
  else
    match stream.feed.read (max stream.chunk 1) with
    | ([], rest) =>
        (Text.Utf8.decodeLossy stream.carry,
          { stream with feed := rest, carry := [], exhausted := true })
    | (bytes, rest) =>
        let (characters, carry) := Text.Utf8.decodeOpen (stream.carry ++ bytes)
        (characters, { stream with feed := rest, carry := carry })

theorem stock_pull (stream : Stream) :
    stream.pull.1.length + stream.pull.2.stock ≤ stream.stock := by
  unfold pull
  split
  · simp_all [stock]
  · have spent := Feed.byteCount_read (max stream.chunk 1) stream.feed
    split
    · have bound := Text.Utf8.length_decodeLossy stream.carry
      simp_all [stock]
      omega
    · rename_i bytes rest _ step
      have bound := Text.Utf8.length_decodeOpen (stream.carry ++ bytes)
      simp_all [stock]
      omega

theorem weight_pull_lt (stream : Stream) (unfinished : stream.exhausted = false) :
    stream.pull.2.weight < stream.weight := by
  have spent := Feed.byteCount_read (max stream.chunk 1) stream.feed
  unfold pull
  split
  · simp_all
  · split
    · rename_i rest step
      rw [step] at spent
      simp only [weight, unfinished, List.length_nil, Bool.false_eq_true, ↓reduceIte] at spent ⊢
      omega
    · rename_i bytes rest nonempty step
      have positive : 0 < bytes.length := List.length_pos_iff.mpr nonempty
      simp_all [weight]
      omega

def drain (stream : Stream) : List Char × Stream :=
  if finished : stream.exhausted then ([], stream)
  else
    have := weight_pull_lt stream (by simpa using finished)
    let pulled := stream.pull
    let drained := drain pulled.2
    (pulled.1 ++ drained.1, drained.2)
termination_by stream.weight

end Stream

end TapeMachine
