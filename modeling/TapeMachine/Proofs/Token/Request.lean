import TapeMachine.Proofs.Token.Recognition

/-!
Contract: what clients ask of a buffer.

Owns: the requests with their answers, the buffer behind a request, the buffers that requests lead
to, and the soundness of all of them.
-/

namespace TapeMachine

inductive BufferRequest where
  | read
  | peek (offset : Nat)
  | push (text : List Char) (tracked fold : Bool)
  | checkpoint
  | rewind
  | count
  | isEmpty
  | remaining
  | probe (kind : Kind)
  | extract (kind : Kind)
  | classify
deriving DecidableEq, Repr

inductive BufferAnswer where
  | done
  | glyph (found : Option Char)
  | number (count : Nat)
  | truth (value : Bool)
  | text (text : List Char)
  | token (text : Option (List Char))
  | kind (found : Option Kind)
deriving DecidableEq, Repr

namespace Buffer

def respond (buffer : Buffer) : BufferRequest → BufferAnswer × Buffer
  | .read => (.glyph buffer.read.1, buffer.read.2)
  | .peek offset => (.glyph (buffer.peek offset).1, (buffer.peek offset).2)
  | .push text tracked fold => (.done, buffer.push text tracked fold)
  | .checkpoint => (.done, buffer.checkpoint)
  | .rewind => (.done, buffer.rewind)
  | .count => (.number buffer.count.1, buffer.count.2)
  | .isEmpty => (.truth buffer.isEmpty.1, buffer.isEmpty.2)
  | .remaining => (.text buffer.remaining.1, buffer.remaining.2)
  | .probe kind => (.truth (buffer.probe kind).1, (buffer.probe kind).2)
  | .extract kind => (.token (buffer.extract kind).1, (buffer.extract kind).2)
  | .classify => (.kind buffer.classify.1, buffer.classify.2)

/-- The buffer behind requests that are made one after the other. -/
def after (buffer : Buffer) (requests : List BufferRequest) : Buffer :=
  requests.foldl (fun buffer request => (buffer.respond request).2) buffer

/-- A buffer as it is made, of a text or of a stream that has not been drawn from. -/
inductive Fresh : Buffer → Prop where
  | ofText (text : List Char) : Fresh (.ofText text)
  | ofStream (name : String) (feed : Feed) (chunk threshold : Nat) :
      Fresh (.ofStream name (.ofFeed feed chunk threshold))

theorem Fresh.plain {buffer : Buffer} (fresh : buffer.Fresh) : buffer.Plain := by
  cases fresh with
  | ofText text => exact plain_start textSourceName text none
  | ofStream name feed chunk threshold => exact plain_start name [] _

theorem Sound.remaining {buffer : Buffer} (sound : buffer.Sound) : buffer.remaining.2.Sound := by
  obtain ⟨stream, drawn, -⟩ := buffer.remaining_spec
  rw [drawn]
  exact ⟨by simpa using sound.counted, sound.lineStart⟩

theorem Sound.respond {buffer : Buffer} (sound : buffer.Sound) (request : BufferRequest) :
    (buffer.respond request).2.Sound := by
  cases request with
  | read => exact sound.read
  | peek offset => exact sound.peek offset
  | push text tracked fold => exact sound.push text tracked fold
  | checkpoint => exact sound.checkpoint.sound
  | rewind => exact sound.rewind.sound
  | count => exact sound.fill 0
  | isEmpty => exact sound.fill 0
  | remaining => exact sound.remaining
  | probe kind => exact (probe_spec kind sound).2.plain.sound
  | extract kind => exact (extract_spec kind sound).2.1.sound
  | classify => exact (classify_spec sound).2.plain.sound

theorem Sound.after {buffer : Buffer} (sound : buffer.Sound) (requests : List BufferRequest) :
    (buffer.after requests).Sound := by
  induction requests generalizing buffer with
  | nil => exact sound
  | cons request others inductionHypothesis => exact inductionHypothesis (sound.respond request)

end Buffer

end TapeMachine
