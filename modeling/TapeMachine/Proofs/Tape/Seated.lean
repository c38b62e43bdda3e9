import TapeMachine.Proofs.Tape.Infinite

/-!
Contract: every tape that can come about is a window on an infinite tape.

Owns: the tapes whose cursors all stand on cells, that nothing one does with a tape leads away from
them, and the infinite tape that such a tape shows a part of.

The coordinates of this infinite tape count from the left edge that the tape has now.
-/

namespace TapeMachine

/-- There is a cell, and every cursor, dead or alive, stands on one. -/
structure Tape.Seated (tape : Tape) : Prop where
  filled : 0 < tape.cells.size
  onCells : ∀ slot ∈ tape.slots, slot.position < tape.cells.size

/-- The infinite tape with the cells and the cursors of a tape. -/
def Tape.ideal (tape : Tape) : InfiniteTape where
  cell := fun coordinate =>
    if coordinate < 0 then tape.fill else tape.cells[coordinate.toNat]?.getD tape.fill
  low := 0
  high := tape.cells.size - 1
  markers := tape.slots.toList.map fun slot => ⟨slot.position, slot.alive⟩

theorem Tape.Seated.mirrors {tape : Tape} (seated : tape.Seated) : Mirrors tape tape.ideal where
  cells := by
    have filled := seated.filled
    apply List.ext_getElem?
    intro index
    rw [InfiniteTape.getElem?_reached]
    by_cases inside : index < tape.cells.size
    · have reached : (index : Int) ≤ tape.cells.size - 1 := by omega
      have natural : ¬ (index : Int) < 0 := by omega
      simp [Tape.ideal, inside, reached, natural]
    · have outside : ¬ (index : Int) ≤ tape.cells.size - 1 := by omega
      simp [Tape.ideal, inside, outside]
  slots := by simp [Tape.ideal, Function.comp_def]
  within := by
    intro marker member
    obtain ⟨slot, present, rfl⟩ := List.mem_map.mp member
    have placed := seated.onCells slot (Array.mem_toList_iff.mp present)
    simp only [Tape.ideal]
    omega
  ordered := by
    have filled := seated.filled
    simp only [Tape.ideal]
    omega
  beyond := by
    intro coordinate outside
    simp only [Tape.ideal] at outside ⊢
    split
    · rfl
    · have past : tape.cells.size ≤ coordinate.toNat := by omega
      simp [past]

/-- A tape is determined by the infinite one, its filler and the text for resets. -/
theorem Mirrors.unique {tape other : Tape} {ideal : InfiniteTape} (mirrors : Mirrors tape ideal)
    (mirrorsOther : Mirrors other ideal) (fill : tape.fill = other.fill)
    (initial : tape.initial = other.initial) : tape = other :=
  Tape.ext (Array.ext' (mirrors.cells.trans mirrorsOther.cells.symm))
    (Array.ext' (mirrors.slots.trans mirrorsOther.slots.symm)) fill initial

theorem Mirrors.seated {tape : Tape} {ideal : InfiniteTape} (mirrors : Mirrors tape ideal) :
    tape.Seated where
  filled := by
    have ordered := mirrors.ordered
    rw [mirrors.size_cells]
    omega
  onCells := by
    intro slot member
    have listed : slot ∈ tape.slots.toList := Array.mem_toList_iff.mpr member
    rw [mirrors.slots] at listed
    obtain ⟨marker, present, rfl⟩ := List.mem_map.mp listed
    have within := mirrors.within marker present
    rw [mirrors.size_cells]
    simp only
    omega

namespace Tape

theorem seated_blank (fill : Char) : (blank fill).Seated :=
  ⟨Nat.one_pos, by simp [blank]⟩

/-- The furthest position is at least the least one and that of every slot. -/
theorem le_furthest (slots : List Slot) (least : Nat) :
    least ≤ slots.foldl (fun furthest slot => max furthest slot.position) least ∧
      ∀ slot ∈ slots,
        slot.position ≤ slots.foldl (fun furthest slot => max furthest slot.position) least := by
  induction slots generalizing least with
  | nil => simp
  | cons first others inductionHypothesis =>
      obtain ⟨bound, rest⟩ := inductionHypothesis (max least first.position)
      refine ⟨Nat.le_trans (Nat.le_max_left _ _) bound, ?_⟩
      rintro slot (_ | ⟨_, later⟩)
      · exact Nat.le_trans (Nat.le_max_right _ _) bound
      · exact rest slot later

/-- A reset seats the cursors wherever they were. -/
theorem seated_reset (tape : Tape) (resetCursors : Bool) : (tape.reset resetCursors).Seated := by
  cases resetCursors with
  | true => exact ⟨by simp [reset], by simp [reset]⟩
  | false =>
      have furthest := (le_furthest tape.slots.toList 0).2
      simp only [Array.foldl_toList, Array.mem_toList_iff] at furthest
      constructor
      · simp [reset]
      · intro slot member
        simp only [reset, Bool.false_eq_true, ↓reduceIte, growTo_slots, growTo_size] at member ⊢
        have placed := furthest slot member
        omega

theorem seated_load (tape : Tape) (initial : List Char) : (tape.load initial).Seated :=
  seated_reset _ false

theorem Seated.respond {tape : Tape} (seated : tape.Seated) (request : TapeRequest) :
    (tape.respond request).2.Seated :=
  (seated.mirrors.respond request).2.seated

theorem Seated.walk {tape : Tape} (seated : tape.Seated) {id : CursorId}
    (registered : id < tape.slots.size) (count : Nat) (direction : Direction) :
    (tape.walk id count direction).Seated := by
  have marked : tape.ideal.markers[id]? =
      some ⟨tape.slots[id].position, tape.slots[id].alive⟩ := by
    simp [ideal, registered]
  exact (seated.mirrors.walk marked count direction).seated

theorem Seated.onTape {tape : Tape} (seated : tape.Seated) {id : CursorId}
    (registered : id < tape.slots.size) : tape.OnTape id := by
  have present := Array.getElem?_eq_getElem registered
  have placed := seated.onCells _ (Array.mem_of_getElem? present)
  simpa [OnTape, slotPosition, present] using placed

theorem Seated.ready {tape : Tape} (seated : tape.Seated) {id : CursorId}
    (alive : tape.isAlive id = true) : tape.Ready id :=
  ⟨alive, seated.onTape (registered_of_isAlive alive)⟩

end Tape

end TapeMachine
