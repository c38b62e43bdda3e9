import TapeMachine.Proofs.Machine.StepCount
import TapeMachine.Proofs.Machine.Traversal
import TapeMachine.Proofs.Tape.Overflow

/-!
Contract: a move of many cells is made of moves of fewer cells, unless a sum overflows.

Owns: the way there and back of a cursor, the states between the first and the last step of a move,
the composition of moves with which both agree, and how a move by one sum differs from two moves in
a program that does not check its sums.

Does not own: where other instructions lead; `Proofs.Machine.Traversal` does.
-/

namespace TapeMachine

/-! ## There and back -/

namespace Tape

/-- A tape with fill cells on both sides of its old cells, and every cursor on its old cell. -/
structure Widens (tape behind : Tape) (left right : Nat) : Prop where
  cells : behind.cells =
    Array.replicate left tape.fill ++ tape.cells ++ Array.replicate right tape.fill
  slots : ∀ other : CursorId, behind.slots[other]? =
    tape.slots[other]?.map fun slot => { slot with position := slot.position + left }

theorem Widens.size {tape behind : Tape} {left right : Nat}
    (widens : tape.Widens behind left right) :
    behind.cells.size = left + tape.cells.size + right := by
  simp [widens.cells, Nat.add_assoc]

/-- Every old cell holds what it held. -/
theorem Widens.getElem?_cells {tape behind : Tape} {left right : Nat}
    (widens : tape.Widens behind left right) {index : Nat} (inside : index < tape.cells.size) :
    behind.cells[index + left]? = tape.cells[index]? := by
  have early : index + left < (Array.replicate left tape.fill ++ tape.cells).size := by
    simp
    omega
  rw [widens.cells, Array.getElem?_append_left early, Array.getElem?_append_right (by simp)]
  simp

/-- The second walk adds no cell: it stays on the cells that the first one had to reach. -/
theorem widens_walk_walk (tape : Tape) {id : CursorId} (registered : id < tape.slots.size)
    (onTape : tape.OnTape id) (count : Nat) (direction : Direction) :
    tape.Widens ((tape.walk id count direction).walk id count direction.opposite)
      (tape.deficit id count direction) (tape.surplus id count direction) := by
  have position := slotPosition_walk_self tape registered count direction
  have noDeficit : (tape.walk id count direction).deficit id count direction.opposite = 0 := by
    cases direction <;> simp only [Direction.opposite, deficit, position, destination]
    omega
  have noSurplus : (tape.walk id count direction).surplus id count direction.opposite = 0 := by
    unfold OnTape at onTape
    cases direction <;>
      simp only [Direction.opposite, surplus, position, size_walk, destination, deficit]
    omega
  have home : (tape.walk id count direction).destination id count direction.opposite =
      tape.slotPosition id + tape.deficit id count direction := by
    cases direction <;> simp only [Direction.opposite, destination, position, deficit] <;> omega
  constructor
  · rw [walk_cells _ id, noDeficit, noSurplus, walk_cells tape id]
    simp
  · intro other
    rw [getElem?_walk, getElem?_walk, Option.map_map, noDeficit, home]
    cases found : tape.slots[other]? with
    | none => rfl
    | some slot =>
        by_cases same : id = other
        · subst same
          simp [slotPosition, found]
        · simp [same]

end Tape

/-! ## The steps of a move -/

/-- In the course of a move by some cells, the tape is the one behind a move by as many cells as
there have been steps, and the others are pending. A move by no cell takes one step all the same. -/
theorem Machine.advances_move {machine : Machine} {tape : Tape} {cursor : CursorId}
    {code : Array Instruction} {direction : Direction} {distance : Int} {below : List Value}
    (ready : tape.Ready cursor) (still : machine.walk = none) (active : machine.active = some code)
    (found : code[machine.index]? = some (.move direction))
    (top : machine.stack = .number distance :: below) {count : Nat} (begun : 0 < count)
    (within : count ≤ max 1 distance.natAbs) :
    ∃ next, Machine.Advances cursor machine tape count next
        (tape.walk cursor (min count distance.natAbs) (direction.toward distance)) ∧
      next.pendingCells = distance.natAbs - count := by
  have work : machine.hasMoreWork = true := by simp [hasMoreWork, active]
  cases size : distance.natAbs with
  | zero =>
      obtain rfl := Int.natAbs_eq_zero.mp size
      obtain rfl : count = 1 := by omega
      rw [Nat.min_zero, Tape.walk_zero _ ready.onTape]
      refine ⟨({ machine.countStep with stack := below }.advance).settle, .step work ?_ .refl, ?_⟩
      · simp [step, plan, still, active, found, execute, beginMove, countStep, top,
          Effect.refusal?, Effect.perform]
      · rw [pendingCells_settle, pendingCells_of_still (by exact still)]
  | succ remaining =>
      obtain ⟨walked, rfl⟩ : ∃ walked, count = 1 + walked := ⟨count - 1, by omega⟩
      have executed : machine.countStep.execute (tape.read cursor) (.move direction) =
          .ok (({ machine.countStep with stack := below }.advance).walking
            (direction.toward distance) remaining, .walk (direction.toward distance)) :=
        execute_move (by exact top) size
      have first : machine.step tape cursor =
          (.ok (({ machine.countStep with stack := below }.advance).walking
            (direction.toward distance) remaining).settle,
            tape.walk cursor 1 (direction.toward distance)) := by
        simp only [step, plan, still, active, found, executed, Effect.refusal?,
          ready.refusal?_eq_none, Effect.perform]
      have others := ({ machine.countStep with stack := below }.advance).walking_advances
        (ready.walk 1 (direction.toward distance)) (direction.toward distance)
        (show walked ≤ remaining by omega)
      rw [Tape.walk_walk _ (Tape.registered_of_isAlive ready.alive)] at others
      have reached : min (1 + walked) (remaining + 1) = 1 + walked := by omega
      rw [reached, Nat.add_comm 1]
      rw [Nat.add_comm 1] at others
      refine ⟨_, .step work first others, ?_⟩
      rw [pendingCells_settle]
      by_cases more : 0 < remaining - walked
      · simp [walking, pendingCells, more]
      · simp [walking, pendingCells, more]
        omega

/-! ## Composition -/

namespace Arithmetic

variable {arithmetic : Arithmetic} {tape : Tape} {id : CursorId}

theorem move_of_ready (ready : tape.Ready id) (count : Nat) (direction : Direction) :
    arithmetic.move tape id count direction =
      ExceptT.mk ((arithmetic.walk tape id count direction).map .ok) := by
  rw [move, Tape.permit, ready.refusal?_eq_none]
  rfl

theorem move_of_sumsFit (ready : tape.Ready id) {count : Nat} {direction : Direction}
    (fits : SumsFit tape id count direction) :
    arithmetic.move tape id count direction = pure (tape.walk id count direction) := by
  rw [move_of_ready ready, (arithmetic.computes_walk _ _ _ _).returns fits]
  rfl

theorem move_of_counted (seated : tape.Seated) (ready : tape.Ready id) {count : Nat}
    {direction : Direction} (counted : (tape.walk id count direction).Counted) :
    arithmetic.move tape id count direction = pure (tape.walk id count direction) :=
  move_of_sumsFit ready (sumsFit_of_counted seated counted)

theorem move_stops (ready : tape.Ready id) {count : Nat} {direction : Direction}
    (overflows : ¬ SumsFit tape id count direction) :
    checked.move tape id count direction = ExceptT.mk none := by
  have stops : checked.walk tape id count direction = none :=
    Option.eq_none_iff_forall_not_mem.mpr fun _ returned =>
      overflows (sumsFit_of_checked returned)
  rw [move_of_ready ready, stops, Option.map_none]

/-- Where the sums of the long move do not fit, a program that checks them stops in one of the two
short ones as well. -/
theorem move_add (ready : tape.Ready id) {first second : Nat} {direction : Direction}
    (word : first + second < UInt64.size)
    (sound : arithmetic = .checked ∨ SumsFit tape id (first + second) direction) :
    arithmetic.move tape id (first + second) direction =
      (arithmetic.move tape id first direction >>= fun middle =>
        arithmetic.move middle id second direction) := by
  have registered := Tape.registered_of_isAlive ready.alive
  have parts := sumsFit_add registered word direction
  have there := ready.walk first direction
  by_cases fits : SumsFit tape id (first + second) direction
  · obtain ⟨begun, ended⟩ := parts.mp fits
    rw [move_of_sumsFit ready fits, move_of_sumsFit ready begun, pure_bind,
      move_of_sumsFit there ended, Tape.walk_walk tape registered]
  · obtain rfl := sound.resolve_right fits
    rw [move_stops ready fits]
    by_cases begun : SumsFit tape id first direction
    · have later : ¬ SumsFit (tape.walk id first direction) id second direction :=
        fun ended => fits (parts.mpr ⟨begun, ended⟩)
      rw [move_of_sumsFit ready begun, pure_bind, move_stops there later]
    · rw [move_stops ready begun]
      rfl

end Arithmetic

open Arithmetic

/-- On a tape whose cursors stand on cells, a living cursor moves by a sum of cells as it moves by
one summand and then by the other, and a move by no cell changes nothing. The steps of a machine's
move lead through the moves by one cell, by two, and so on up to its distance; a negative distance
goes the other way. A move there and back leaves every cursor on its cell and every old cell as it
was. All this holds of a program's moves as long as a word can count the cells that they lead to;
one that checks its sums stops in both moves or in neither. -/
theorem moves_compose (arithmetic : Arithmetic) (tape : Tape) (id : CursorId)
    (inRange : ∀ slot ∈ tape.slots, slot.position < tape.cells.size) (counted : tape.Counted)
    (alive : tape.isAlive id = true) :
    (∀ first second direction, first + second < UInt64.size →
      arithmetic = .checked ∨ (tape.walk id (first + second) direction).Counted →
      arithmetic.move tape id (first + second) direction =
        (arithmetic.move tape id first direction >>= fun middle =>
          arithmetic.move middle id second direction)) ∧
      (∀ direction, arithmetic.move tape id 0 direction = pure tape) ∧
      (∀ (machine : Machine) (code : Array Instruction) (direction : Direction) (distance : Int)
          (below : List Value),
        machine.walk = none → machine.active = some code →
        code[machine.index]? = some (.move direction) → machine.stack = .number distance :: below →
        (tape.walk id distance.natAbs (direction.toward distance)).Counted →
        ∀ count, 0 < count → count ≤ max 1 distance.natAbs →
          ∃ next behind, Machine.Advances id machine tape count next behind ∧
            next.pendingCells = distance.natAbs - count ∧
            arithmetic.move tape id (min count distance.natAbs) (direction.toward distance) =
              pure behind) ∧
      ∀ count direction, (tape.walk id count direction).Counted →
        ∃ there back left right, arithmetic.move tape id count direction = pure there ∧
          arithmetic.move there id count direction.opposite = pure back ∧
          tape.Widens back left right ∧
          ∀ index, index < tape.cells.size → back.cells[index + left]? = tape.cells[index]? := by
  have registered := Tape.registered_of_isAlive alive
  have onTape : tape.OnTape id := by
    have own := inRange _ (Array.getElem_mem registered)
    simpa [Tape.OnTape, Tape.slotPosition, registered] using own
  have ready : tape.Ready id := ⟨alive, onTape⟩
  have seated : tape.Seated := ⟨Nat.zero_lt_of_lt onTape, inRange⟩
  refine ⟨?_, ?_, ?_, ?_⟩
  · intro first second direction word sound
    exact move_add ready word (sound.imp_right (sumsFit_of_counted seated))
  · intro direction
    have still := Tape.walk_zero tape onTape direction
    rw [move_of_counted seated ready (by rwa [still]), still]
  · intro machine code direction distance below still active found top reached count begun within
    obtain ⟨next, advances, pending⟩ :=
      Machine.advances_move ready still active found top begun within
    have counts := counted_walk_of_le (Nat.min_le_right count _) reached
    exact ⟨next, _, advances, pending, move_of_counted seated ready counts⟩
  · intro count direction reached
    have widens := tape.widens_walk_walk registered onTape count direction
    have returned :
        ((tape.walk id count direction).walk id count direction.opposite).Counted := by
      rw [Tape.Counted, widens.size, ← Tape.size_walk]
      exact reached
    have there := seated.walk registered count direction
    exact ⟨_, _, _, _, move_of_counted seated ready reached,
      move_of_counted there (ready.walk count direction) returned, widens,
      fun _ inside => widens.getElem?_cells inside⟩

/-- Two cursors on a short tape, the first of them one cell away from the left edge. -/
def edgeTape : Tape :=
  (((Tape.ofText "ab".toList '_').register 1).1.register 0).1

/-- A machine in front of a move to the right by a negative distance. -/
def turningMachine : Machine where
  program := ⟨⟨#[.push (.number (-3)), .move .right], #[]⟩, .empty⟩
  active := some #[.push (.number (-3)), .move .right]
  routine := .main
  index := 1
  stack := [.number (-3)]
  walk := none
  steps := 1
  halted := false

/-- The first step stays on the tape, the two others add a cell each. -/
theorem moves_compose_acrossEdge :
    (∀ slot ∈ edgeTape.slots, slot.position < edgeTape.cells.size) ∧ edgeTape.Counted ∧
      edgeTape.isAlive 0 = true ∧ (edgeTape.walk 0 3 .left).Counted ∧
      (wrapping.move edgeTape 0 1 .left >>= fun middle => wrapping.move middle 0 2 .left) =
        wrapping.move edgeTape 0 3 .left ∧
      (∃ next behind, Machine.Advances 0 turningMachine edgeTape 3 next behind ∧
        next.pendingCells = 0 ∧ behind.text = "__ab_".toList ∧ behind.slotPosition 1 = 2) ∧
      ∃ there back left right, wrapping.move edgeTape 0 3 .left = pure there ∧
        wrapping.move there 0 3 .right = pure back ∧ edgeTape.Widens back left right := by
  have inRange : ∀ slot ∈ edgeTape.slots, slot.position < edgeTape.cells.size := by decide
  have counted : edgeTape.Counted := by decide
  have alive : edgeTape.isAlive 0 = true := by decide
  have reached : (edgeTape.walk 0 3 .left).Counted := by decide
  have moved : (wrapping.move edgeTape 0 3 .left).run =
      some (.ok ⟨#['_', '_', 'a', 'b', '_'], #[⟨0, true⟩, ⟨2, true⟩], '_', "ab".toList⟩) := by
    decide +kernel
  obtain ⟨composes, -, steps, returns⟩ := moves_compose .wrapping edgeTape 0 inRange counted alive
  refine ⟨inRange, counted, alive, reached,
    (composes 1 2 .left (by decide) (.inr reached)).symm, ?_, ?_⟩
  · obtain ⟨next, behind, advances, pending, there⟩ :=
      steps turningMachine _ .right (-3) [] rfl rfl rfl rfl reached 3 (by decide) (by decide)
    obtain rfl := Except.ok.inj (Option.some.inj (moved.symm.trans there))
    exact ⟨next, _, advances, pending, rfl, rfl⟩
  · obtain ⟨there, back, left, right, away, home, widens, -⟩ := returns 3 .left reached
    exact ⟨there, back, left, right, away, home, widens⟩

/-- What a program does that does not check its sums. From the last of two cells, the greatest word
leads in one move to a sum of zero, which needs no cell, and in two moves the first one adds a cell.
From the only cell there and back, the number of cells to reach is zero, and the cell is gone. A
program that checks its sums stops on the way there. -/
theorem moves_differ_on_overflow :
    let last : Tape := ⟨#['_', '_'], #[⟨1, true⟩], '_', []⟩
    let only : Tape := ⟨#['_'], #[⟨0, true⟩], '_', []⟩
    (∀ slot ∈ last.slots, slot.position < last.cells.size) ∧ last.isAlive 0 = true ∧
      (wrapping.move last 0 (1 + 18446744073709551614) .right).run =
        some (.ok ⟨#['_', '_'], #[⟨0, true⟩], '_', []⟩) ∧
      (wrapping.move last 0 1 .right >>= fun middle =>
        wrapping.move middle 0 18446744073709551614 .right).run =
        some (.ok ⟨#['_', '_', '_'], #[⟨0, true⟩], '_', []⟩) ∧
      (∀ slot ∈ only.slots, slot.position < only.cells.size) ∧ only.isAlive 0 = true ∧
      (wrapping.move only 0 18446744073709551615 .right >>= fun there =>
        wrapping.move there 0 18446744073709551615 .left).run =
        some (.ok ⟨#[], #[⟨0, true⟩], '_', []⟩) ∧
      (checked.move only 0 18446744073709551615 .right).run = none := by
  intro last only
  refine ⟨by decide, by decide, ?_, ?_, by decide, by decide, ?_, ?_⟩
  · decide +kernel
  · decide +kernel
  · decide +kernel
  · decide +kernel

end TapeMachine
