import TapeMachine.Proofs.Machine.Transition

/-!
Contract: the states of a run, one after each step.

Owns: that a longer run goes on where a shorter one has ended, what holds of every machine that has
settled, and that a step with work to do is counted.
-/

namespace TapeMachine.Machine

/-! ## Runs cut in two -/

section Runs

variable {cursor : CursorId} {machine : Machine} {tape : Tape}

theorem run_of_idle (idle : machine.hasMoreWork = false) (count : Nat) :
    machine.run cursor count tape = ⟨machine, tape, none, ()⟩ := by
  cases count with
  | zero => rfl
  | succ count => simp [run, runWith, idle]

theorem run_of_step {next : Machine} {behind : Tape} (work : machine.hasMoreWork = true)
    (stepped : machine.step tape cursor = (.ok next, behind)) (count : Nat) :
    machine.run cursor (count + 1) tape = next.run cursor count behind := by
  simp [run, runWith, work, stepped]

theorem run_of_fault {fault : Fault} {behind : Tape} (work : machine.hasMoreWork = true)
    (stepped : machine.step tape cursor = (.error fault, behind)) (count : Nat) :
    (machine.run cursor (count + 1) tape).fault = some fault := by
  simp [run, runWith, work, stepped]

/-- A run goes on where its first steps have led, if none of them faults. -/
theorem run_add {first : Nat} (quiet : (machine.run cursor first tape).fault = none)
    (others : Nat) :
    machine.run cursor (first + others) tape =
      (machine.run cursor first tape).machine.run cursor others
        (machine.run cursor first tape).tape := by
  induction first generalizing machine tape with
  | zero =>
      rw [Nat.zero_add]
      rfl
  | succ first inductionHypothesis =>
      cases work : machine.hasMoreWork with
      | false => rw [run_of_idle work, run_of_idle work, run_of_idle work]
      | true =>
          rcases stepped : machine.step tape cursor with ⟨outcome, behind⟩
          cases outcome with
          | error fault =>
              rw [run_of_fault work stepped] at quiet
              contradiction
          | ok next =>
              rw [run_of_step work stepped] at quiet
              rw [Nat.add_right_comm, run_of_step work stepped, run_of_step work stepped]
              exact inductionHypothesis quiet

/-- In a run that never faults, what has work left after some steps takes one more. -/
theorem step_of_quiet (quiet : ∀ limit, (machine.run cursor limit tape).fault = none) (count : Nat)
    (work : (machine.run cursor count tape).machine.hasMoreWork = true) :
    ∃ next behind,
      (machine.run cursor count tape).machine.step (machine.run cursor count tape).tape cursor =
        (.ok next, behind) ∧
      machine.run cursor (count + 1) tape = ⟨next, behind, none, ()⟩ := by
  have goesOn := run_add (quiet count) 1
  rcases stepped : (machine.run cursor count tape).machine.step
    (machine.run cursor count tape).tape cursor with ⟨outcome, behind⟩
  cases outcome with
  | error fault =>
      have faulty := run_of_fault work stepped 0
      rw [← goesOn, quiet] at faulty
      contradiction
  | ok next => exact ⟨next, behind, rfl, goesOn.trans (run_of_step work stepped 0)⟩

end Runs

/-! ## Settled machines -/

/-- Of a move that has begun at least one cell is left, and without one there is an instruction at
the index, unless the run is over. -/
structure Settled (machine : Machine) : Prop where
  walking : ∀ walk, machine.walk = some walk → 0 < walk.remaining
  ready : ∀ instructions, machine.walk = none → machine.active = some instructions →
    machine.index < instructions.size

theorem settled_finish (machine : Machine) : machine.finish.Settled :=
  ⟨by simp [finish], by simp [finish]⟩

theorem settled_settle {machine : Machine}
    (walking : ∀ walk, machine.walk = some walk → 0 < walk.remaining) : machine.settle.Settled := by
  unfold settle
  split
  next moving =>
    refine ⟨walking, ?_⟩
    intro instructions still
    simp [still] at moving
  next =>
    split
    next => exact settled_finish machine
    next instructions active =>
      split
      next => exact settled_finish machine
      next inside =>
        refine ⟨walking, ?_⟩
        intro others _ same
        obtain rfl := Option.some.inj (active.symm.trans same)
        exact Nat.lt_of_not_le inside

@[simp] theorem settle_steps (machine : Machine) : machine.settle.steps = machine.steps := by
  unfold settle
  split
  · rfl
  · split
    · rfl
    · split <;> rfl

theorem settled_start (program : Executable) : (start program).Settled :=
  settled_settle (by simp)

namespace Settled

variable {machine next : Machine} {tape behind : Tape} {cursor : CursorId}

/-- A settled machine has work left exactly if it has a move to finish or an instruction. -/
theorem hasMoreWork_iff (settled : machine.Settled) :
    machine.hasMoreWork = true ↔
      0 < machine.pendingCells ∨ ∃ instruction, machine.nextInstruction? = some instruction := by
  cases walking : machine.walk with
  | some walk => simp [hasMoreWork, pendingCells, walking, settled.walking walk walking]
  | none =>
      cases active : machine.active with
      | none => simp [hasMoreWork, pendingCells, nextInstruction?, instructions, walking, active]
      | some code =>
          have inside := settled.ready code walking active
          simp [hasMoreWork, pendingCells, nextInstruction?, instructions, walking, active, inside]

/-- A step with work to do leads to a settled machine and is counted. -/
theorem step (settled : machine.Settled) (work : machine.hasMoreWork = true)
    (stepped : machine.step tape cursor = (.ok next, behind)) :
    next.Settled ∧ next.steps = machine.steps + 1 := by
  obtain ⟨effect, turns, -, -⟩ := step_ok stepped
  cases turns with
  | @walk direction remaining _ same =>
      subst same
      refine ⟨settled_settle ?_, settle_steps _⟩
      rintro walk left
      simp only [countStep] at left
      split at left
      next several =>
        obtain rfl := Option.some.inj left
        exact Nat.sub_pos_of_lt several
      next => contradiction
  | rest still ended => simp [hasMoreWork, still, ended] at work
  | exhaust still active beyond =>
      have inside := settled.ready _ still active
      simp [inside] at beyond
  | @execute _ instruction executed still active found outcome same =>
      subst same
      rw [settle_steps]
      cases proceeds_of_execute outcome with
      | call _ _ entered =>
          subst entered
          exact ⟨settled_settle (by simp [countStep, still]), rfl⟩
      | halt _ ended =>
          subst ended
          exact ⟨settled_settle (by simp [finish]), rfl⟩
      | go _ _ steps walk =>
          refine ⟨settled_settle fun pending left => ?_, steps⟩
          rcases walk pending left with earlier | positive
          · simp [countStep, still] at earlier
          · exact positive

end Settled

end TapeMachine.Machine
