import TapeMachine.Proofs.Tape.Lifetime

/-!
Contract: the picture of a tape shows what an image of it holds.

Owns: what a row of marks and a row of cells have to be in order to depict an image, the texts and
the positions in the image of a tape, and that a tape with all cursors on cells is depicted.

The row of marks is as long as it needs to be, and a picture is cut at its first line feed. Cells may
hold line feeds too.
-/

namespace TapeMachine

/-- Two rows depict an image: the second one is its contents, and in the first one there is a mark
above a cell exactly if a living cursor is on it. -/
structure Depicts (marks cells : List Char) (image : TapeImage) : Prop where
  cells : image.contents.toList = cells
  drawn : ∀ glyph ∈ marks, glyph = 'v' ∨ glyph = ' '
  marked : ∀ index, marks[index]? = some 'v' ↔ (index, true) ∈ image.pointers.zip image.alive

namespace Tape

theorem contents_image (tape : Tape) : tape.image.contents.toList = tape.text := by
  simp [TapeImage.contents, image, text, List.flatMap_map, Char.toString]

theorem mem_zip_image {tape : Tape} {index : Nat} :
    (index, true) ∈ tape.image.pointers.zip tape.image.alive ↔
      ∃ slot ∈ tape.slots, slot.alive = true ∧ slot.position = index := by
  simp only [image, List.zip_map', List.mem_map, Array.mem_toList_iff, Prod.mk.injEq]
  constructor
  · rintro ⟨slot, member, position, alive⟩
    exact ⟨slot, member, alive, position⟩
  · rintro ⟨slot, member, alive, position⟩
    exact ⟨slot, member, position, alive⟩

/-- What is drawn above a cell. -/
def mark (tape : Tape) (index : Nat) : Char :=
  if tape.slots.any fun slot => slot.alive && slot.position == index then 'v' else ' '

theorem mark_eq (tape : Tape) (index : Nat) : tape.mark index = 'v' ∨ tape.mark index = ' ' := by
  unfold mark
  split
  · exact .inl rfl
  · exact .inr rfl

theorem mark_eq_iff {tape : Tape} {index : Nat} :
    tape.mark index = 'v' ↔ ∃ slot ∈ tape.slots, slot.alive = true ∧ slot.position = index := by
  have stands : (tape.slots.any fun slot => slot.alive && slot.position == index) = true ↔
      ∃ slot ∈ tape.slots, slot.alive = true ∧ slot.position = index := by
    simp only [Array.any_eq_true', Bool.and_eq_true, beq_iff_eq]
  rw [← stands]
  unfold mark
  split
  next standing => exact iff_of_true rfl standing
  next nobody => exact iff_of_false (by decide) nobody

/-- The blanks at the end of the row are cut off. -/
theorem marks_prefix (tape : Tape) : tape.marks <+: (List.range tape.cells.size).map tape.mark :=
  List.rdropWhile_prefix (fun glyph => decide (glyph = ' ')) _

theorem mem_marks {tape : Tape} {glyph : Char} (member : glyph ∈ tape.marks) :
    glyph = 'v' ∨ glyph = ' ' := by
  obtain ⟨index, -, rfl⟩ := List.mem_map.mp (tape.marks_prefix.subset member)
  exact tape.mark_eq index

/-- A mark is drawn for a living cursor on a cell, and nowhere else. -/
theorem getElem?_marks {tape : Tape} {index : Nat} :
    tape.marks[index]? = some 'v' ↔
      index < tape.cells.size ∧ ∃ slot ∈ tape.slots, slot.alive = true ∧ slot.position = index := by
  constructor
  · intro found
    obtain ⟨cut, whole⟩ := tape.marks_prefix
    obtain ⟨inside, -⟩ := List.getElem?_eq_some_iff.mp found
    have onTape := Nat.lt_of_lt_of_le inside tape.length_marks_le
    rw [← List.getElem?_append_left inside, whole, List.getElem?_map, List.getElem?_range onTape,
      Option.map_some, Option.some.injEq] at found
    exact ⟨onTape, mark_eq_iff.mp found⟩
  · rintro ⟨inside, slot, member, alive, rfl⟩
    obtain ⟨id, registered, same⟩ := Array.mem_iff_getElem.mp member
    have found : tape.slots[id]? = some slot := same ▸ Array.getElem?_eq_getElem registered
    have position : tape.slotPosition id = slot.position := by simp [slotPosition, found]
    have ready : tape.Ready id := ⟨by simp [isAlive, found, alive], by rwa [OnTape, position]⟩
    rw [← position]
    exact ready.marked

theorem Seated.depicts {tape : Tape} (seated : tape.Seated) :
    Depicts tape.marks tape.text tape.image where
  cells := tape.contents_image
  drawn := fun _ => mem_marks
  marked := by
    intro index
    rw [getElem?_marks, mem_zip_image, and_iff_right_iff_imp]
    rintro ⟨slot, member, -, rfl⟩
    exact seated.onCells slot member

end Tape

end TapeMachine
