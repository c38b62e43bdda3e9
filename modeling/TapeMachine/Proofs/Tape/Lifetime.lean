import Mathlib.Data.List.DropRight
import TapeMachine.Proofs.Tape.Overflow
import TapeMachine.Snapshot.View

/-!
Contract: no cursor leaves the cells, whatever is done to a tape, unless a sum overflows.

Owns: the changes in the life of a tape, that all of them seat the cursors, what seated cursors
mean for reading, writing, drawing and taking an image, and how a program that does not check its
sums takes a cursor off the tape.

Drawing is total here. What is said of it is therefore that a mark is drawn above a cell that
exists.
-/

namespace TapeMachine

inductive TapeChange where
  | request (request : TapeRequest)
  | load (initial : List Char)
  | reset (resetCursors : Bool)
deriving DecidableEq, Repr

namespace Tape

def change (tape : Tape) : TapeChange → Tape
  | .request request => (tape.respond request).2
  | .load initial => tape.load initial
  | .reset resetCursors => tape.reset resetCursors

/-- The tape behind changes that are made one after the other. -/
def changeAll (tape : Tape) (changes : List TapeChange) : Tape :=
  changes.foldl change tape

theorem Seated.change {tape : Tape} (seated : tape.Seated) (change : TapeChange) :
    (tape.change change).Seated := by
  cases change with
  | request request => exact seated.respond request
  | load initial => exact seated_load tape initial
  | reset resetCursors => exact seated_reset tape resetCursors

theorem Seated.changeAll {tape : Tape} (seated : tape.Seated) (changes : List TapeChange) :
    (tape.changeAll changes).Seated := by
  induction changes generalizing tape with
  | nil => exact seated
  | cons change others inductionHypothesis => exact inductionHypothesis (seated.change change)

/-- A word can count the cells behind each of the changes. -/
def CountedAlong (tape : Tape) : List TapeChange → Prop
  | [] => True
  | change :: others =>
      (tape.change change).Counted ∧ (tape.change change).CountedAlong others

/-! ## Cursors and marks -/

/-- Cutting off the end of a list as far as it passes a test keeps what does not pass it. -/
theorem getElem?_rdropWhile {α : Type} {passes : α → Bool} {list : List α} {index : Nat}
    {value : α} (found : list[index]? = some value) (fails : passes value = false) :
    (list.rdropWhile passes)[index]? = some value := by
  have whole : list.rdropWhile passes ++ list.rtakeWhile passes = list :=
    List.rdropWhile_append_rtakeWhile
  by_cases kept : index < (list.rdropWhile passes).length
  · rwa [← whole, List.getElem?_append_left kept] at found
  · rw [← whole, List.getElem?_append_right (Nat.le_of_not_lt kept)] at found
    have passed := List.mem_rtakeWhile_imp (List.mem_of_getElem? found)
    simp [fails] at passed

/-- A living cursor on a cell has its mark above the cell. -/
theorem Ready.marked {tape : Tape} {id : CursorId} (ready : tape.Ready id) :
    tape.marks[tape.slotPosition id]? = some 'v' := by
  obtain ⟨slot, found, alive⟩ := (tape.isAlive_iff id).mp ready.alive
  have onTape := ready.onTape
  have position : tape.slotPosition id = slot.position := by simp [slotPosition, found]
  rw [OnTape, position] at onTape
  have standing : tape.slots.any (fun slot' => slot'.alive && slot'.position == slot.position) :=
    Array.any_eq_true'.mpr ⟨slot, Array.mem_of_getElem? found, by simp [alive]⟩
  rw [position]
  refine getElem?_rdropWhile ?_ (by decide)
  rw [List.getElem?_map, List.getElem?_range onTape, Option.map_some, if_pos standing]

theorem length_marks_le (tape : Tape) : tape.marks.length ≤ tape.cells.size := by
  refine Nat.le_trans (List.rdropWhile_prefix (fun glyph => decide (glyph = ' ')) _).length_le ?_
  rw [List.length_map, List.length_range]

/-! ## Images -/

@[simp] theorem length_memory_image (tape : Tape) :
    tape.image.memory.length = tape.cells.size := by
  simp [image]

theorem length_of_mem_memory {tape : Tape} {text : String} (member : text ∈ tape.image.memory) :
    text.length = 1 := by
  obtain ⟨glyph, -, rfl⟩ := List.mem_map.mp member
  simp [Char.toString]

theorem position?_view (tape : Tape) {id : CursorId} (registered : id < tape.slots.size) :
    (tape.view id).position? = some (tape.slotPosition id) := by
  simp [View.position?, view, image, slotPosition, registered]

end Tape

/-! ## Changes by a program -/

namespace Arithmetic

def change (arithmetic : Arithmetic) (tape : Tape) : TapeChange → Option Tape
  | .request request => (arithmetic.respond tape request).map Prod.snd
  | .load initial => arithmetic.load tape initial
  | .reset resetCursors => arithmetic.reset tape resetCursors

/-- The tape behind changes that a program makes one after the other. -/
def changeAll (arithmetic : Arithmetic) (tape : Tape) : List TapeChange → Option Tape
  | [] => some tape
  | change :: others => do
      let changed ← arithmetic.change tape change
      arithmetic.changeAll changed others

theorem computes_change (arithmetic : Arithmetic) {tape : Tape} (seated : tape.Seated)
    (change : TapeChange) :
    arithmetic.Computes (tape.change change).Counted (tape.change change)
      (arithmetic.change tape change) := by
  cases change with
  | request request => exact (arithmetic.computes_respond seated request).map Prod.snd
  | load initial => exact arithmetic.computes_load tape initial
  | reset resetCursors => exact arithmetic.computes_reset tape resetCursors

theorem computes_changeAll (arithmetic : Arithmetic) {tape : Tape} (seated : tape.Seated)
    (changes : List TapeChange) :
    arithmetic.Computes (tape.CountedAlong changes) (tape.changeAll changes)
      (arithmetic.changeAll tape changes) := by
  induction changes generalizing tape with
  | nil => exact .pure _ _ _
  | cons change others inductionHypothesis =>
      have first := arithmetic.computes_change seated change
      have rest := inductionHypothesis (seated.change change)
      exact first.bind rest

end Arithmetic

/-- Whatever a program does to a fresh tape and in whatever order, it goes on as long as a word can
count the cells. Where it checks its sums or they fit, the tape keeps a cell, and all of its cursors,
dead or alive, stand on cells. So a living cursor reads the character of a cell and writes into one,
and its mark is drawn above one, in a row that is no longer than that of the cells. An image has a
text of one character for every cell, as many positions as flags, and shows every cursor on a
cell. -/
theorem every_slot_stays_on_tape (arithmetic : Arithmetic) (fill : Char)
    (changes : List TapeChange) :
    let outcome := arithmetic.changeAll (Tape.blank fill) changes
    let counted := (Tape.blank fill).CountedAlong changes
    (counted → ∃ tape, outcome = some tape) ∧
      ∀ tape, outcome = some tape → arithmetic = .checked ∨ counted →
        tape.Seated ∧
          (∀ id, tape.isAlive id = true →
            (∃ glyph, arithmetic.respond tape (.read id) = some (.glyph glyph, tape) ∧
              tape.cells[tape.slotPosition id]? = some glyph) ∧
              (∀ glyph, ∃ written,
                arithmetic.respond tape (.write id glyph) = some (.done, written) ∧
                  written.cells[tape.slotPosition id]? = some glyph) ∧
              tape.marks[tape.slotPosition id]? = some 'v') ∧
          tape.marks.length ≤ tape.cells.size ∧
          tape.image.pointers.length = tape.image.alive.length ∧
          tape.image.memory.length = tape.cells.size ∧
          (∀ text ∈ tape.image.memory, text.length = 1) ∧
          ∀ id < tape.slots.size, ∃ position,
            (tape.view id).position? = some position ∧ position < tape.image.memory.length := by
  intro outcome counted
  have computes := arithmetic.computes_changeAll (Tape.seated_blank fill) changes
  refine ⟨fun counts => ⟨_, computes.returns counts⟩, fun tape returned sound => ?_⟩
  have seated : tape.Seated := by
    rw [computes.eq returned sound]
    exact (Tape.seated_blank fill).changeAll changes
  refine ⟨seated, ?_, tape.length_marks_le, by simp [Tape.image], tape.length_memory_image,
    fun _ => Tape.length_of_mem_memory, ?_⟩
  · intro id alive
    have ready := seated.ready alive
    obtain ⟨glyph, answered, -, cell⟩ := ready.respond_read arithmetic
    refine ⟨⟨glyph, answered, cell⟩, fun glyph => ?_, ready.marked⟩
    obtain ⟨written, answered, -, cell⟩ := ready.respond_write arithmetic glyph
    exact ⟨written, answered, cell⟩
  · intro id registered
    refine ⟨_, tape.position?_view registered, ?_⟩
    rw [Tape.length_memory_image]
    exact seated.onTape registered

/-- A cursor beyond the text stays where it is when the text is loaded again. -/
theorem every_slot_stays_on_tape_reloaded :
    let changes : List TapeChange :=
      [.load ['a', 'b'], .request (.register 4), .request (.write 0 'z'), .reset false]
    (Tape.blank '_').CountedAlong changes ∧
      ∃ tape, Arithmetic.wrapping.changeAll (Tape.blank '_') changes = some tape ∧
        tape.picture = "    v\nab___".toList ∧ tape.Seated := by
  intro changes
  have counted : (Tape.blank '_').CountedAlong changes :=
    ⟨by decide, by decide, by decide, by decide, trivial⟩
  have last : Arithmetic.wrapping.changeAll (Tape.blank '_') changes =
      some ⟨#['a', 'b', '_', '_', '_'], #[⟨4, true⟩], '_', ['a', 'b']⟩ := by
    decide +kernel
  obtain ⟨-, safe⟩ := every_slot_stays_on_tape .wrapping '_' changes
  exact ⟨counted, _, last, by decide +kernel, (safe _ last (.inr counted)).1⟩

/-- The cursor of a program that does not check its sums, moved from the left edge by the greatest
word. The number of cells that this asks for is zero, so they are all gone, and the cursor stands on
none of them: its next read stops the program. One that checks its sums has stopped before. -/
theorem cursor_leaves_tape_on_overflow :
    let changes : List TapeChange :=
      [.request (.register 0), .request (.move 0 18446744073709551615 .right)]
    let bare : Tape := ⟨#[], #[⟨18446744073709551615, true⟩], '_', []⟩
    Arithmetic.wrapping.changeAll (Tape.blank '_') changes = some bare ∧ ¬ bare.Seated ∧
      Arithmetic.wrapping.respond bare (.read 0) = none ∧
      Arithmetic.checked.changeAll (Tape.blank '_') changes = none := by
  intro changes bare
  refine ⟨by decide +kernel, fun seated => absurd seated.filled (by decide), by decide +kernel,
    by decide +kernel⟩

end TapeMachine
