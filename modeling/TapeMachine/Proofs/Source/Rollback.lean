import TapeMachine.Proofs.Token.Request

/-!
Contract: going back to a checkpoint after speculation.

Owns: what going back would lead to, the requests that a speculation is made of, none of which
changes that, and the exactness of going back behind any number of them.

Line breaks of a tracked insertion are counted when they are read but never logged, and characters
that are put back may lie in front of unread insertions. So the line counter and the unread
characters of a speculating buffer follow no simple law; where it would go back to does.
-/

namespace TapeMachine

namespace Buffer

/-! ## Where going back leads to -/

/-- The content that going back to the checkpoint would leave: what has been logged since then,
and what is still unread except for tracked insertions. -/
def kept (buffer : Buffer) : List Char :=
  buffer.log.reverse ++
    ((buffer.unread.filter fun next => !next.inserted).map Unread.glyph ++ buffer.supply)

/-- The reading that going back to the checkpoint would lead to. -/
def origin (buffer : Buffer) : Reading where
  name := buffer.name
  content := buffer.kept
  log := []
  line := buffer.checkpointLine
  last := buffer.checkpointLast
  checkpointLine := buffer.checkpointLine
  checkpointLast := buffer.checkpointLast

theorem reading_rewind_eq_origin {buffer : Buffer} (sound : buffer.Sound) :
    buffer.rewind.reading = buffer.origin := by
  have content : buffer.rewind.content = buffer.kept := by
    rw [Buffer.content, rewind_unread sound]
    simp [kept, supply, rewind]
  rw [reading, content]
  rfl

theorem origin_of_plain {buffer : Buffer} (plain : buffer.Plain) :
    buffer.origin = buffer.reading.rewind :=
  (reading_rewind_eq_origin plain.sound).symm.trans (reading_rewind plain)

theorem origin_checkpoint {buffer : Buffer} (sound : buffer.Sound) :
    buffer.checkpoint.origin = buffer.reading.checkpoint := by
  rw [origin_of_plain sound.checkpoint, reading_checkpoint]
  rfl

theorem origin_rewind {buffer : Buffer} (sound : buffer.Sound) :
    buffer.rewind.origin = buffer.origin := by
  rw [← reading_rewind_eq_origin sound.rewind.sound, rewind_rewind, reading_rewind_eq_origin sound]

@[simp] theorem origin_fill (buffer : Buffer) (wanted : Nat) :
    (buffer.fill wanted).origin = buffer.origin := by
  obtain ⟨drawn, stream, filled, drew⟩ := buffer.fill_append wanted
  have same : (buffer.fill wanted).kept = buffer.kept := by
    simp only [kept, drew]
    simp [filled, List.filter_map, Function.comp_def, Unread.ordinary]
  rw [origin, same, filled]
  rfl

/-! ## Speculation -/

/-- A character that is read is logged or is one that going back cuts out. -/
theorem origin_take {buffer : Buffer} {next : Unread} {rest : List Unread}
    (front : buffer.unread = next :: rest) : (buffer.take next rest).origin = buffer.origin := by
  cases inserted : next.inserted <;> simp [origin, kept, take, supply, front, inserted]

theorem origin_read (buffer : Buffer) : buffer.read.2.origin = buffer.origin := by
  rw [read]
  split
  · exact buffer.origin_fill 1
  · rename_i next rest front
    exact (origin_take front).trans (buffer.origin_fill 1)

theorem origin_insert (buffer : Buffer) (text : List Char) :
    (text.foldr (fun glyph buffer => buffer.pushGlyph true glyph) buffer).origin =
      buffer.origin := by
  induction text with
  | nil => rfl
  | cons glyph others inductionHypothesis =>
      rw [List.foldr_cons, ← inductionHypothesis]
      simp [origin, kept, pushGlyph, supply]

/-- A character on top of the log becomes the first of the unread ones that going back keeps. -/
theorem origin_pushGlyph_logged {buffer : Buffer} {glyph : Char} (log : List Char)
    (logged : buffer.log = glyph :: log) :
    (buffer.pushGlyph false glyph).origin = buffer.origin ∧
      (buffer.pushGlyph false glyph).log = log := by
  simp [origin, kept, pushGlyph, logged, unconsume, supply, Unread.ordinary]

/-- Putting characters back, the latest one first, as far as they are those of the log. -/
theorem origin_putBack {text : List Char} {buffer : Buffer} (logged : text <:+ buffer.log.reverse) :
    (text.foldr (fun glyph buffer => buffer.pushGlyph false glyph) buffer).origin =
      buffer.origin := by
  obtain ⟨latest, rfl⟩ : ∃ latest : List Char, text = latest.reverse := ⟨text.reverse, by simp⟩
  rw [List.foldr_reverse]
  rw [List.reverse_suffix] at logged
  induction latest generalizing buffer with
  | nil => rfl
  | cons glyph earlier inductionHypothesis =>
      obtain ⟨log, rest⟩ := logged
      obtain ⟨same, shorter⟩ := origin_pushGlyph_logged (earlier ++ log) rest.symm
      rw [List.foldl_cons, inductionHypothesis (by rw [shorter]; exact List.prefix_append _ _), same]

/-- A request that a speculation is made of: reading, looking ahead, inserting any text for the
time being, and putting back text that is the end of what has been logged. -/
def Speculates (buffer : Buffer) : BufferRequest → Prop
  | .read => True
  | .peek _ => True
  | .push text tracked _ => tracked = true ∨ text <:+ buffer.log.reverse
  | _ => False

def SpeculatesAll (buffer : Buffer) : List BufferRequest → Prop
  | [] => True
  | request :: others => buffer.Speculates request ∧ (buffer.respond request).2.SpeculatesAll others

instance (buffer : Buffer) (request : BufferRequest) : Decidable (buffer.Speculates request) := by
  unfold Speculates
  cases request <;> infer_instance

instance decidableSpeculatesAll (buffer : Buffer) (requests : List BufferRequest) :
    Decidable (buffer.SpeculatesAll requests) :=
  match requests with
  | [] => inferInstanceAs (Decidable True)
  | request :: others =>
      have := decidableSpeculatesAll (buffer.respond request).2 others
      inferInstanceAs (Decidable (buffer.Speculates request ∧ _))

theorem origin_push {buffer : Buffer} (sound : buffer.Sound) {text : List Char} {tracked : Bool}
    (logged : tracked = true ∨ text <:+ buffer.log.reverse) (fold : Bool) :
    (buffer.push text tracked fold).origin = buffer.origin := by
  have pushed : (buffer.push text tracked false).origin = buffer.origin := by
    cases tracked with
    | true => exact origin_insert buffer text
    | false => exact origin_putBack (by simpa using logged)
  cases fold with
  | true => exact (origin_rewind (sound.push text tracked false)).trans pushed
  | false => exact pushed

/-- No request of a speculation changes where going back leads to. -/
theorem origin_respond {buffer : Buffer} (sound : buffer.Sound) {request : BufferRequest}
    (speculates : buffer.Speculates request) :
    (buffer.respond request).2.origin = buffer.origin := by
  cases request with
  | read => exact buffer.origin_read
  | peek offset => exact buffer.origin_fill (offset + 1)
  | push text tracked fold => exact origin_push sound speculates fold
  | _ => exact absurd speculates id

theorem origin_after {buffer : Buffer} (sound : buffer.Sound) {requests : List BufferRequest}
    (speculates : buffer.SpeculatesAll requests) :
    (buffer.after requests).origin = buffer.origin := by
  induction requests generalizing buffer with
  | nil => rfl
  | cons request others inductionHypothesis =>
      rcases speculates with ⟨first, rest⟩
      exact (inductionHypothesis (sound.respond request) rest).trans (origin_respond sound first)

/-! ## Going back -/

/-- Whatever a buffer has been used for, going back behind any speculation from a checkpoint on
restores the unread content, the line and the line-start flag of the checkpoint. -/
theorem rewind_undoes_speculation {start : Buffer} (fresh : start.Fresh)
    (history speculation : List BufferRequest)
    (speculates : (start.after history).checkpoint.SpeculatesAll speculation) :
    let marked := start.after history
    let returned := (marked.checkpoint.after speculation).rewind
    returned.content = marked.content ∧ returned.line = marked.line ∧
      returned.atLineStart = marked.atLineStart := by
  intro marked returned
  have sound : marked.Sound := fresh.plain.sound.after history
  have soundBehind := sound.checkpoint.sound.after speculation
  have back : returned.reading = marked.reading.checkpoint := by
    rw [reading_rewind_eq_origin soundBehind, origin_after sound.checkpoint.sound speculates,
      origin_checkpoint sound]
  refine ⟨congrArg Reading.content back, congrArg Reading.line back, ?_⟩
  rw [soundBehind.rewind.lineStart, sound.lineStart]
  exact congrArg startsLineAfter (congrArg Reading.last back)

/-- A stream that delivers three lines in pieces. -/
def piecewise : Buffer :=
  .ofStream "pieces"
    (.ofFeed [.bytes [0x61, 0x62, 0x0A, 0x63], .interrupted, .bytes [0x0C, 0x64]] 3 0)

/-- An insertion is read with its line break, another one comes to lie behind what is put back, and
one is folded away before the reading begins again. -/
def probing : List BufferRequest :=
  [.read, .push ['~', '\n'] true false, .read, .read, .read, .peek 1, .push ['x'] true false,
    .push ['\n', 'b'] false false, .read, .read, .read, .push ['y', '\x0c'] true true, .read, .read,
    .read, .read, .push ['\n', 'c'] false false, .push ['z'] true false]

theorem rewind_undoes_speculation_probing :
    (piecewise.after [.read, .push ['\n'] true false]).checkpoint.SpeculatesAll probing ∧
      let marked := piecewise.after [.read, .push ['\n'] true false]
      let returned := (marked.checkpoint.after probing).rewind
      returned.content = marked.content ∧ returned.line = marked.line ∧
        returned.atLineStart = marked.atLineStart := by
  have speculates :
      (piecewise.after [.read, .push ['\n'] true false]).checkpoint.SpeculatesAll probing := by
    decide +kernel
  exact ⟨speculates, rewind_undoes_speculation (.ofStream _ _ _ _) _ _ speculates⟩

end Buffer

end TapeMachine
