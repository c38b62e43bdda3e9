import Mathlib.Algebra.GroupWithZero.Nat
import TapeMachine.Proofs.Machine.Reachable
import TapeMachine.Proofs.Tape.Infinite

/-!
Contract: what one step does, and how many steps a run takes.

Owns: the changes that a unit of effect can make to a tape, the instructions that are executed along
a run with the distances of the moves among them, and the count of steps in terms of these.

A move is begun by one step and continued by others. The cells that it still has to walk are what
the count of steps lacks until they have been walked, wherever the index is by then.
-/

namespace TapeMachine

/-! ## One unit of effect -/

/-- At most one unit of effect with a cursor leads from one tape to another: nothing changes, the
cell under the cursor gets another character, or the cursor moves by one cell. When that adds a cell
on the left, all stored positions are pushed along. -/
inductive Tape.Budges (tape : Tape) (cursor : CursorId) (behind : Tape) : Prop where
  | still (same : behind = tape)
  | written (glyph : Char)
      (here : tape.OnTape cursor → behind.cells[tape.slotPosition cursor]? = some glyph)
      (elsewhere : ∀ index, index ≠ tape.slotPosition cursor →
        behind.cells[index]? = tape.cells[index]?)
      (slots : behind.slots = tape.slots)
  | moved (direction : Direction) (left right : Nat)
      (few : tape.OnTape cursor → left + right ≤ 1)
      (cells : behind.cells =
        Array.replicate left tape.fill ++ tape.cells ++ Array.replicate right tape.fill)
      (own : (behind.slotPosition cursor : Int) =
        tape.slotPosition cursor + direction.signed 1 + left)
      (others : ∀ other, other ≠ cursor → behind.slots[other]? =
        tape.slots[other]?.map fun slot => { slot with position := slot.position + left })
      (alive : behind.isAlive cursor = tape.isAlive cursor)

theorem Tape.budges_put (tape : Tape) (cursor : CursorId) (glyph : Char) :
    tape.Budges cursor (tape.put cursor glyph) := by
  refine .written glyph ?_ ?_ rfl
  · intro onTape
    rw [OnTape] at onTape
    simp [put, onTape]
  · intro index elsewhere
    simp [put, Array.getElem?_setIfInBounds_ne elsewhere.symm]

theorem Tape.budges_walk {tape : Tape} {cursor : CursorId}
    (registered : cursor < tape.slots.size) (direction : Direction) :
    tape.Budges cursor (tape.walk cursor 1 direction) := by
  refine .moved direction (tape.deficit cursor 1 direction) (tape.surplus cursor 1 direction) ?_
    (tape.walk_cells cursor 1 direction) ?_ ?_ (tape.isAlive_walk cursor cursor 1 direction)
  · intro onTape
    rw [OnTape] at onTape
    cases direction <;> simp only [deficit, surplus] <;> omega
  · rw [slotPosition_walk_self tape registered]
    cases direction <;> simp only [destination, deficit, Direction.signed] <;> omega
  · intro other different
    simp [getElem?_walk, different.symm]

/-- Performing an effect that the cursor allows is one unit of effect at most. -/
theorem Effect.budges {effect : Effect} {tape : Tape} {cursor : CursorId}
    (accepted : effect.refusal? tape cursor = Option.none) :
    tape.Budges cursor (effect.perform tape cursor) := by
  cases effect with
  | none => exact .still rfl
  | write glyph => exact tape.budges_put cursor glyph
  | walk direction =>
      have alive := (tape.refusal?_eq_none_iff cursor).mp accepted
      exact Tape.budges_walk (Tape.registered_of_isAlive alive) direction

/-! ## Executed instructions -/

/-- An instruction that has been executed. Of a move, the distance is what counts. -/
inductive Deed where
  | move (distance : Int)
  | other (instruction : Instruction)
deriving DecidableEq, Repr

namespace Deed

/-- The cells that a move walks; other instructions walk none. -/
def cells : Deed → Nat
  | .move distance => distance.natAbs
  | .other _ => 0

def isOther : Deed → Bool
  | .move _ => false
  | .other _ => true

/-- The steps that an instruction takes, the walking included. -/
def steps : Deed → Nat
  | .move distance => max 1 distance.natAbs
  | .other _ => 1

/-- Other instructions take one step, and so does a move by no cell. -/
theorem sum_steps (deeds : List Deed) :
    (deeds.map steps).sum =
      deeds.countP isOther + deeds.count (.move 0) + (deeds.map cells).sum := by
  induction deeds with
  | nil => rfl
  | cons deed others inductionHypothesis =>
      simp only [List.map_cons, List.sum_cons, List.countP_cons, List.count_cons,
        inductionHypothesis]
      cases deed with
      | other instruction =>
          simp [steps, isOther, cells]
          omega
      | move distance =>
          by_cases zero : distance = 0 <;> simp [steps, isOther, cells, zero] <;> omega

end Deed

namespace Machine

/-- The instruction that the next step executes; none if the step continues a move, or faults for
want of a number to move by. -/
def deed? (machine : Machine) : Option Deed :=
  match machine.task?, machine.stack with
  | some (.instruction (.move _)), .number distance :: _ => some (.move distance)
  | some (.instruction (.move _)), _ => none
  | some (.instruction instruction), _ => some (.other instruction)
  | _, _ => none

/-- Steps without a fault lead from one machine to another, on whatever tape each of them finds, and
these are the instructions that they execute. -/
inductive Performs : Machine → List Deed → Machine → Prop where
  | refl {machine : Machine} : Performs machine [] machine
  | step {machine next last : Machine} {tape behind : Tape} {cursor : CursorId}
      {deeds : List Deed} (stepped : machine.step tape cursor = (.ok next, behind))
      (others : Performs next deeds last) :
      Performs machine (machine.deed?.toList ++ deeds) last

/-- The instructions that a machine executes in its next steps, alone on a tape. -/
def deeds (cursor : CursorId) : Nat → Machine → Tape → List Deed
  | 0, _, _ => []
  | limit + 1, machine, tape =>
      if machine.hasMoreWork then
        match machine.step tape cursor with
        | (.ok next, tape) => machine.deed?.toList ++ deeds cursor limit next tape
        | (.error _, _) => []
      else []

/-- A run without a fault performs its instructions. -/
theorem performs_run (cursor : CursorId) (limit : Nat) (machine : Machine) (tape : Tape)
    (quiet : (machine.run cursor limit tape).fault = none) :
    machine.Performs (deeds cursor limit machine tape) (machine.run cursor limit tape).machine := by
  induction limit generalizing machine tape with
  | zero => exact .refl
  | succ limit inductionHypothesis =>
      cases work : machine.hasMoreWork with
      | false =>
          rw [run_of_idle work, deeds, if_neg (by simp [work])]
          exact .refl
      | true =>
          rcases stepped : machine.step tape cursor with ⟨outcome, behind⟩
          cases outcome with
          | error fault =>
              rw [run_of_fault work stepped] at quiet
              contradiction
          | ok next =>
              rw [run_of_step work stepped] at quiet
              rw [run_of_step work stepped, deeds, if_pos work, stepped]
              exact .step stepped (inductionHypothesis next behind quiet)

theorem pendingCells_of_still {machine : Machine} (still : machine.walk = none) :
    machine.pendingCells = 0 := by
  simp [pendingCells, still]

@[simp] theorem pendingCells_settle (machine : Machine) :
    machine.settle.pendingCells = machine.pendingCells := by
  rcases machine.settle_cases with same | ended
  · rw [same]
  · cases walking : machine.walk with
    | some walk => simp [settle, walking]
    | none => rw [ended, pendingCells_of_still rfl, pendingCells_of_still walking]

theorem pendingCells_beginMove {machine : Machine} (still : machine.walk = none) (distance : Int)
    (direction : Direction) :
    (machine.beginMove distance direction).1.pendingCells + 1 = max 1 distance.natAbs := by
  unfold beginMove
  split
  next zero => simp [pendingCells_of_still still, zero]
  next => by_cases more : 0 < distance.natAbs - 1 <;> simp [pendingCells, more] <;> omega

/-- Of the steps that an instruction takes, all but one are left behind it. -/
theorem deed_of_executes {machine next : Machine} {glyph : Except TapeError Char}
    {instruction : Instruction} {effect : Effect} (still : machine.walk = none)
    (found : machine.nextInstruction? = some instruction)
    (executes : machine.countStep.Executes glyph instruction next effect) :
    ∃ deed, machine.deed? = some deed ∧ next.pendingCells + 1 = deed.steps := by
  have task : machine.task? = some (.instruction instruction) := by simp [task?, still, found]
  have counted : machine.countStep.walk = none := still
  cases executes with
  | @move _ distance _ same =>
      have top : machine.stack = .number distance :: _ := same
      refine ⟨.move distance, by simp only [deed?, task, top], ?_⟩
      exact pendingCells_beginMove (by exact counted) distance _
  | halt => exact ⟨.other .halt, by simp only [deed?, task], rfl⟩
  | push | duplicate | compare | read | write | jump | jumpIf | pass | call =>
      refine ⟨.other _, by simp only [deed?, task]; rfl, ?_⟩
      simp [pendingCells, advance, counted, Deed.steps]

/-- A step with work to do is one of those that the instruction which it executes or continues
takes. -/
theorem pendingCells_step {machine next : Machine} {tape behind : Tape} {cursor : CursorId}
    (settled : machine.Settled) (work : machine.hasMoreWork = true)
    (stepped : machine.step tape cursor = (.ok next, behind)) :
    next.pendingCells + 1 = machine.pendingCells + (machine.deed?.toList.map Deed.steps).sum := by
  obtain ⟨effect, turns, -, -⟩ := step_ok stepped
  cases turns with
  | @walk direction remaining walking same =>
      have positive : 0 < remaining := settled.walking _ walking
      have continued : machine.deed? = none := by simp [deed?, task?, walking]
      rw [same, pendingCells_settle, continued]
      by_cases several : 1 < remaining <;>
        simp [pendingCells, countStep, walking, several] <;> omega
  | rest still ended => simp [hasMoreWork, still, ended] at work
  | exhaust still active beyond =>
      have inside := settled.ready _ still active
      simp [inside] at beyond
  | @execute _ instruction _ still active found outcome same =>
      have comes : machine.nextInstruction? = some instruction := by
        simpa [nextInstruction?, instructions, active] using found
      obtain ⟨deed, executed, left⟩ := deed_of_executes still comes (executes_of_execute outcome)
      rw [same, pendingCells_settle, executed, left, pendingCells_of_still still]
      simp

/-- Along steps without a fault, the steps that have been counted and the cells that are still to be
walked are the steps that the executed instructions take. -/
theorem Performs.steps_add_pendingCells {machine last : Machine} {deeds : List Deed}
    (performs : machine.Performs deeds last) (settled : machine.Settled) :
    last.steps + last.pendingCells =
      machine.steps + machine.pendingCells + (deeds.map Deed.steps).sum := by
  induction performs with
  | refl => rfl
  | @step machine next last tape behind cursor deeds stepped others inductionHypothesis =>
      cases work : machine.hasMoreWork with
      | false =>
          rw [settled.step_of_idle work] at stepped
          obtain rfl := Except.ok.inj (Prod.mk.inj stepped).1
          have nothing : machine.deed? = none := by simp [deed?, task?_of_idle work]
          simpa [nothing] using inductionHypothesis settled
      | true =>
          obtain ⟨settledNext, counted⟩ := settled.step work stepped
          have taken := pendingCells_step settled work stepped
          have rest := inductionHypothesis settledNext
          rw [List.map_append, List.sum_append]
          omega

end Machine

/-- In every state that steps without a fault lead to, a step with work to do that does not fault
is counted once and is one unit of effect at most. So when a run is over, it has taken one step for
each instruction that is no move and for each move by no cell, and for every other move as many as
it has walked cells. -/
theorem one_unit_of_effect_per_step (program : Executable) :
    (∀ machine next tape behind cursor, (Machine.start program).LeadsTo machine →
        machine.hasMoreWork = true → machine.step tape cursor = (.ok next, behind) →
        next.steps = machine.steps + 1 ∧ tape.Budges cursor behind) ∧
      ∀ deeds last, (Machine.start program).Performs deeds last → last.hasMoreWork = false →
        last.steps =
          deeds.countP Deed.isOther + deeds.count (.move 0) + (deeds.map Deed.cells).sum := by
  have begins := Machine.settled_start program
  constructor
  · intro machine next tape behind cursor reached work stepped
    have settled := ((Machine.Runs.start program).leadsTo reached).settled
    obtain ⟨effect, -, accepted, performed⟩ := Machine.step_ok stepped
    exact ⟨(settled.step work stepped).2, performed ▸ Effect.budges accepted⟩
  · intro deeds last performs idle
    have law := performs.steps_add_pendingCells begins
    have uncounted : (Machine.start program).steps = 0 := by simp [Machine.start]
    have fresh : (Machine.start program).pendingCells = 0 := by
      rw [Machine.start, Machine.pendingCells_settle]
      rfl
    have walked : last.pendingCells = 0 :=
      Machine.pendingCells_of_still (Machine.hasMoreWork_eq_false_iff.mp idle).1
    rw [← Deed.sum_steps]
    omega

/-- A move by a negative distance, a move by no cell, and a move that ends the sequence. -/
def wanderingMoves : Executable where
  main := ⟨#[.push (.number (-2)), .move .left, .push (.number 0), .move .right,
    .push (.number 1), .move .left], #[]⟩
  labels := .empty

theorem one_unit_of_effect_per_step_wanderingMoves :
    ∃ last, (Machine.start wanderingMoves).Performs
        [.other (.push (.number (-2))), .move (-2), .other (.push (.number 0)), .move 0,
          .other (.push (.number 1)), .move 1] last ∧
      last.hasMoreWork = false ∧ last.steps = 3 + 1 + (2 + 1) := by
  let tape := ((Tape.blank '_').register 0).1
  have performs := Machine.performs_run 0 7 (.start wanderingMoves) tape (by decide +kernel)
  have executed : Machine.deeds 0 7 (.start wanderingMoves) tape =
      [.other (.push (.number (-2))), .move (-2), .other (.push (.number 0)), .move 0,
        .other (.push (.number 1)), .move 1] := by
    decide +kernel
  rw [executed] at performs
  have idle : ((Machine.start wanderingMoves).run 0 7 tape).machine.hasMoreWork = false := by
    decide +kernel
  exact ⟨_, performs, idle, (one_unit_of_effect_per_step wanderingMoves).2 _ _ performs idle⟩

end TapeMachine
