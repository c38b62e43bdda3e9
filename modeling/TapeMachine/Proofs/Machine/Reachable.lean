import Mathlib.Logic.Relation
import TapeMachine.Proofs.Machine.Progress

/-!
Contract: the states that a machine can get into.

Owns: the steps without a fault, on whatever tape each of them finds, the invariant that they keep,
what the next step of a machine will carry out, and that a run which is over stays over.

Nothing is asked of a program: it need not come from a text, its jumps may lead anywhere, and its
sequences may be empty.
-/

namespace TapeMachine.Machine

/-- A step without a fault leads from one machine to another, on some tape and with some cursor. -/
def StepsTo (machine next : Machine) : Prop :=
  ∃ tape cursor behind, machine.step tape cursor = (.ok next, behind)

/-- Steps without a fault lead from one machine to another. Between them others may do anything to
the tape. -/
def LeadsTo : Machine → Machine → Prop :=
  Relation.ReflTransGen StepsTo

/-! ## The invariant -/

/-- Nothing is left of a run but its count of steps, its last routine and whether it halted. -/
structure Over (machine : Machine) : Prop where
  active : machine.active = none
  stack : machine.stack = []
  walk : machine.walk = none

/-- A machine runs a program: it executes the sequence that the program has for the routine, unless
the run is over, and it has settled. -/
structure Runs (program : Executable) (machine : Machine) : Prop where
  same : machine.program = program
  settled : machine.Settled
  stored : ∀ instructions, machine.active = some instructions →
    program.instructions? machine.routine = some instructions
  emptied : machine.active = none → machine.Over

theorem settle_cases (machine : Machine) :
    machine.settle = machine ∨ machine.settle = machine.finish := by
  unfold settle
  split
  · exact .inl rfl
  · split
    · exact .inr rfl
    · split
      · exact .inr rfl
      · exact .inl rfl

theorem over_finish (machine : Machine) : machine.finish.Over :=
  ⟨rfl, rfl, rfl⟩

namespace Runs

variable {program : Executable} {machine next : Machine}

theorem finish (same : machine.program = program) : Runs program machine.finish where
  same := same
  settled := settled_finish machine
  stored := by simp [Machine.finish]
  emptied := fun _ => over_finish machine

theorem settle (same : machine.program = program)
    (walking : ∀ walk, machine.walk = some walk → 0 < walk.remaining)
    (stored : ∀ instructions, machine.active = some instructions →
      program.instructions? machine.routine = some instructions)
    (emptied : machine.active = none → machine.Over) : Runs program machine.settle := by
  have settled := settled_settle walking
  rcases machine.settle_cases with goesOn | ends
  · rw [goesOn] at settled ⊢
    exact ⟨same, settled, stored, emptied⟩
  · rw [ends]
    exact finish same

theorem start (program : Executable) : Runs program (Machine.start program) := by
  refine settle rfl (by simp) ?_ (by simp)
  rintro instructions active
  obtain rfl := Option.some.inj active
  rfl

theorem step (runs : Runs program machine) (stepped : machine.StepsTo next) :
    Runs program next := by
  obtain ⟨tape, cursor, behind, stepped⟩ := stepped
  obtain ⟨effect, turns, -, -⟩ := step_ok stepped
  cases turns with
  | @walk direction remaining walking same =>
      subst same
      refine settle runs.same ?_ runs.stored fun ended => ?_
      · intro walk left
        simp only [countStep] at left
        split at left
        next several =>
          obtain rfl := Option.some.inj left
          exact Nat.sub_pos_of_lt several
        next => contradiction
      · have still := (runs.emptied ended).walk
        simp [still] at walking
  | rest _ _ same =>
      subst same
      exact runs
  | exhaust _ _ _ same =>
      subst same
      exact finish runs.same
  | @execute _ _ executed still active _ outcome same =>
      subst same
      cases proceeds_of_execute outcome with
      | call _ found entered =>
          subst entered
          refine settle runs.same ?_ ?_ (by simp)
          · intro walk left
            simp [countStep, still] at left
          · intro others entered
            obtain rfl := Option.some.inj entered
            have listed := found
            rw [show machine.countStep.program = program from runs.same] at listed
            simp [Executable.instructions?, Executable.sequence?, listed]
      | halt _ ended =>
          subst ended
          exact settle runs.same (by simp [Machine.finish]) (by simp [Machine.finish])
            fun _ => over_finish _
      | go sameProgram sameActive _ walk _ _ routine =>
          have goesOn : executed.active = some _ := sameActive.trans active
          refine settle (sameProgram.trans runs.same) ?_ ?_ ?_
          · intro pending left
            rcases walk pending left with earlier | positive
            · simp [countStep, still] at earlier
            · exact positive
          · intro others entered
            rw [routine]
            exact runs.stored others (sameActive.symm.trans entered)
          · intro ended
            simp [goesOn] at ended

theorem leadsTo (runs : Runs program machine) (leads : machine.LeadsTo next) :
    Runs program next := by
  induction leads with
  | refl => exact runs
  | tail _ last inductionHypothesis => exact inductionHypothesis.step last

end Runs

/-! ## The next step -/

/-- What one step carries out. -/
inductive Task where
  | cell (direction : Direction)
  | instruction (instruction : Instruction)
deriving DecidableEq, Repr

/-- What the next step of a machine carries out: a cell of the move in progress, or else the
instruction at the index. -/
def task? (machine : Machine) : Option Task :=
  match machine.walk with
  | some walk => some (.cell walk.direction)
  | none => machine.nextInstruction?.map .instruction

/-- The machine behind one cell of the move in progress. -/
def walkOn (machine : Machine) : Machine :=
  { machine with
    walk := machine.walk.bind fun walk =>
      if 1 < walk.remaining then some ⟨walk.direction, walk.remaining - 1⟩ else none }

def carryOut (machine : Machine) (glyph : Except TapeError Char) :
    Task → Except Fault (Machine × Effect)
  | .cell direction => .ok (machine.walkOn.countStep.settle, .walk direction)
  | .instruction instruction =>
      match machine.countStep.execute glyph instruction with
      | .ok (next, effect) => .ok (next.settle, effect)
      | .error fault => .error fault

/-- A settled machine never finds its index outside of the sequence: a step carries out its task, or
there is none and nothing changes. -/
theorem Settled.plan_eq {machine : Machine} (settled : machine.Settled)
    (glyph : Except TapeError Char) :
    machine.plan glyph =
      match machine.task? with
      | some task => machine.carryOut glyph task
      | none => .ok (machine, .none) := by
  unfold plan task?
  cases walking : machine.walk with
  | some walk => simp [carryOut, walkOn, walking]
  | none =>
      cases active : machine.active with
      | none => simp [nextInstruction?, instructions, active]
      | some code =>
          have found := Array.getElem?_eq_getElem (settled.ready code walking active)
          simp only [nextInstruction?, instructions, active, Option.getD_some, found,
            Option.map_some]
          rfl

theorem hasMoreWork_eq_false_iff {machine : Machine} :
    machine.hasMoreWork = false ↔ machine.walk = none ∧ machine.active = none := by
  simp [hasMoreWork]

theorem task?_of_idle {machine : Machine} (idle : machine.hasMoreWork = false) :
    machine.task? = none := by
  obtain ⟨still, ended⟩ := hasMoreWork_eq_false_iff.mp idle
  simp [task?, nextInstruction?, instructions, still, ended]

theorem Settled.step_of_idle {machine : Machine} (settled : machine.Settled)
    (idle : machine.hasMoreWork = false) (tape : Tape) (cursor : CursorId) :
    machine.step tape cursor = (.ok machine, tape) := by
  unfold Machine.step
  rw [settled.plan_eq, task?_of_idle idle]
  rfl

/-- A run that is over stays as it is. -/
theorem Settled.eq_of_idle {machine later : Machine} (settled : machine.Settled)
    (idle : machine.hasMoreWork = false) (leads : machine.LeadsTo later) : later = machine := by
  induction leads with
  | refl => rfl
  | tail _ last inductionHypothesis =>
      subst inductionHypothesis
      obtain ⟨tape, cursor, behind, stepped⟩ := last
      rw [settled.step_of_idle idle] at stepped
      exact (Except.ok.inj (Prod.mk.inj stepped).1).symm

/-- In every state that steps without a fault lead to, the run of a program is over and has left
nothing, or the machine executes the sequence that the program has for the routine, with a cell of a
move to walk or an instruction at the index. It has work exactly if there is one of both, and then
the next step carries it out; the index is never looked at outside of the sequence. Without work a
step changes nothing, and no step brings work back. -/
theorem reachable_over_or_at_work {program : Executable} {machine : Machine}
    (reached : (start program).LeadsTo machine) :
    (machine.Over ∧ machine.nextIndex? = none ∨
        ∃ instructions, machine.active = some instructions ∧
          program.instructions? machine.routine = some instructions ∧
          (0 < machine.pendingCells ∨ machine.index < instructions.size)) ∧
      (machine.hasMoreWork = true ↔
        0 < machine.pendingCells ∨ ∃ instruction, machine.nextInstruction? = some instruction) ∧
      (∀ glyph, machine.plan glyph =
        match machine.task? with
        | some task => machine.carryOut glyph task
        | none => .ok (machine, .none)) ∧
      (∀ instructions, machine.walk = none → machine.active = some instructions →
        machine.index < instructions.size) ∧
      (machine.hasMoreWork = false →
        (∀ tape cursor, machine.step tape cursor = (.ok machine, tape)) ∧
          ∀ later, machine.LeadsTo later → later = machine) := by
  have runs := (Runs.start program).leadsTo reached
  have settled := runs.settled
  refine ⟨?_, settled.hasMoreWork_iff, settled.plan_eq, settled.ready, fun idle =>
    ⟨settled.step_of_idle idle, fun _ => settled.eq_of_idle idle⟩⟩
  cases active : machine.active with
  | none => exact .inl ⟨runs.emptied active, by simp [nextIndex?, active]⟩
  | some instructions =>
      refine .inr ⟨instructions, rfl, runs.stored instructions active, ?_⟩
      cases walking : machine.walk with
      | none => exact .inr (settled.ready instructions walking active)
      | some walk =>
          have cells := settled.walking walk walking
          exact .inl (by simpa [pendingCells, walking] using cells)

/-- A move by a negative distance at the end of a sequence. -/
def trailingMove : Executable where
  main := ⟨#[.push (.number (-3)), .move .left], #[]⟩
  labels := .empty

/-- The index is behind the sequence, but two cells of the move are left. -/
theorem reachable_over_or_at_work_trailingMove :
    ∃ machine, (start trailingMove).LeadsTo machine ∧ machine.index = 2 ∧
      machine.pendingCells = 2 ∧ machine.hasMoreWork = true := by
  let tape := ((Tape.blank '_').register 0).1
  let first : Machine :=
    { start trailingMove with stack := [.number (-3)], index := 1, steps := 1 }
  let second : Machine :=
    { start trailingMove with walk := some ⟨.right, 2⟩, index := 2, steps := 2 }
  have reached : (start trailingMove).LeadsTo second :=
    (Relation.ReflTransGen.single (b := first) ⟨tape, 0, tape, rfl⟩).tail
      ⟨tape, 0, tape.walk 0 1 .right, rfl⟩
  have work := (reachable_over_or_at_work reached).2.1
  exact ⟨second, reached, rfl, rfl, work.mpr (.inl (by decide))⟩

end TapeMachine.Machine
