import Mathlib.Data.ENat.Lattice
import Mathlib.Order.ConditionallyCompleteLattice.Finset
import TapeMachine.Proofs.Machine.Progress

/-!
Contract: how long a run is, and what is gathered along it.

Owns: the number of steps to the end of a run, that a run with a limit takes as many steps as both
allow, and that a visitor is shown the states after each of these steps.

The visitor is shown nothing before the first step and nothing when the limit is reached.
-/

namespace TapeMachine.Machine

/-- The number of steps to the end of a run, infinite if there always is work left. -/
noncomputable def duration (machine : Machine) (cursor : CursorId) (tape : Tape) : ℕ∞ :=
  ⨅ (count : ℕ) (_ : (machine.run cursor count tape).machine.hasMoreWork = false), (count : ℕ∞)

section Durations

variable {machine next : Machine} {cursor : CursorId} {tape behind : Tape}

theorem duration_of_idle (idle : machine.hasMoreWork = false) : machine.duration cursor tape = 0 :=
  le_antisymm (iInf₂_le 0 idle) zero_le

theorem duration_of_step (work : machine.hasMoreWork = true)
    (stepped : machine.step tape cursor = (.ok next, behind)) :
    machine.duration cursor tape = next.duration cursor behind + 1 := by
  have unended : ¬ (machine.run cursor 0 tape).machine.hasMoreWork = false := by
    simp [run, runWith, work]
  rw [duration, ← inf_iInf_nat_succ, iInf_neg unended, top_inf_eq]
  simp only [run_of_step work stepped, duration, ENat.iInf_add, Nat.cast_add_one]

theorem quiet_of_step (quiet : ∀ limit, (machine.run cursor limit tape).fault = none)
    (work : machine.hasMoreWork = true) (stepped : machine.step tape cursor = (.ok next, behind))
    (limit : ℕ) : (next.run cursor limit behind).fault = none := by
  rw [← run_of_step work stepped]
  exact quiet (limit + 1)

/-- What has work left takes a step, if its run never faults. -/
theorem exists_step (quiet : ∀ limit, (machine.run cursor limit tape).fault = none)
    (work : machine.hasMoreWork = true) :
    ∃ next behind, machine.step tape cursor = (.ok next, behind) := by
  obtain ⟨next, behind, stepped, -⟩ := step_of_quiet quiet 0 work
  exact ⟨next, behind, stepped⟩

/-- A run with a limit takes as many steps as the limit and the work allow. -/
theorem Settled.steps_run (settled : machine.Settled)
    (quiet : ∀ limit, (machine.run cursor limit tape).fault = none) (limit : ℕ) :
    ((machine.run cursor limit tape).machine.steps : ℕ∞) =
      machine.steps + min (limit : ℕ∞) (machine.duration cursor tape) := by
  induction limit generalizing machine tape with
  | zero => simp [run, runWith]
  | succ limit inductionHypothesis =>
      cases work : machine.hasMoreWork with
      | false => simp [run_of_idle work, duration_of_idle work]
      | true =>
          obtain ⟨next, behind, stepped⟩ := exists_step quiet work
          obtain ⟨settledNext, counted⟩ := settled.step work stepped
          rw [run_of_step work stepped, duration_of_step work stepped,
            inductionHypothesis settledNext (quiet_of_step quiet work stepped), counted,
            Nat.cast_add_one, Nat.cast_add_one, min_add_add_right, add_assoc, add_comm 1]

theorem Settled.steps_le_run (settled : machine.Settled)
    (quiet : ∀ limit, (machine.run cursor limit tape).fault = none) (limit : ℕ) :
    machine.steps ≤ (machine.run cursor limit tape).machine.steps := by
  rw [← Nat.cast_le (α := ℕ∞), settled.steps_run quiet]
  exact self_le_add_right _ _

/-- The steps of a run are one more than those of the run behind its first step. -/
theorem Settled.steps_sub (settled : next.Settled)
    (quiet : ∀ limit, (next.run cursor limit behind).fault = none)
    (counted : next.steps = machine.steps + 1) (limit : ℕ) :
    (next.run cursor limit behind).machine.steps - machine.steps =
      (next.run cursor limit behind).machine.steps - next.steps + 1 := by
  have later := settled.steps_le_run quiet limit
  omega

/-- No work is left exactly from the end of the run on. -/
theorem idle_iff_duration_le (quiet : ∀ limit, (machine.run cursor limit tape).fault = none)
    (count : ℕ) :
    (machine.run cursor count tape).machine.hasMoreWork = false ↔
      machine.duration cursor tape ≤ count := by
  induction count generalizing machine tape with
  | zero =>
      cases work : machine.hasMoreWork with
      | false => simp [run_of_idle work, work, duration_of_idle work]
      | true =>
          obtain ⟨next, behind, stepped⟩ := exists_step quiet work
          simp [run, runWith, work, duration_of_step work stepped]
  | succ count inductionHypothesis =>
      cases work : machine.hasMoreWork with
      | false => simp [run_of_idle work, work, duration_of_idle work]
      | true =>
          obtain ⟨next, behind, stepped⟩ := exists_step quiet work
          rw [run_of_step work stepped, duration_of_step work stepped, Nat.cast_add_one,
            inductionHypothesis (quiet_of_step quiet work stepped)]
          exact (WithTop.add_le_add_iff_right ENat.one_ne_top).symm

/-- What a limit does not allow for is not needed, and a run is that of the steps which it takes. -/
theorem Settled.run_eq (settled : machine.Settled)
    (quiet : ∀ limit, (machine.run cursor limit tape).fault = none) (limit : ℕ) :
    machine.run cursor ((machine.run cursor limit tape).machine.steps - machine.steps) tape =
      machine.run cursor limit tape := by
  induction limit generalizing machine tape with
  | zero => simp [run, runWith]
  | succ limit inductionHypothesis =>
      cases work : machine.hasMoreWork with
      | false => rw [run_of_idle work, run_of_idle work]
      | true =>
          obtain ⟨next, behind, stepped⟩ := exists_step quiet work
          obtain ⟨settledNext, counted⟩ := settled.step work stepped
          have quietNext := quiet_of_step quiet work stepped
          have taken := settledNext.steps_sub quietNext counted limit
          rw [run_of_step work stepped, taken, run_of_step work stepped,
            inductionHypothesis settledNext quietNext]

end Durations

/-! ## Visitors -/

/-- A visitor is shown the states after 1, 2 and so on steps, up to the last one. -/
theorem Settled.runWith_eq {σ : Type} (visit : σ → Machine → Tape → σ) {machine : Machine}
    (settled : machine.Settled) {cursor : CursorId} {tape : Tape}
    (quiet : ∀ limit, (machine.run cursor limit tape).fault = none) (limit : ℕ) (seen : σ) :
    let run := machine.run cursor limit tape
    let states := (List.range (run.machine.steps - machine.steps)).map fun index =>
      machine.run cursor (index + 1) tape
    machine.runWith visit cursor limit seen tape =
      ⟨run.machine, run.tape, none,
        states.foldl (fun seen state => visit seen state.machine state.tape) seen⟩ := by
  induction limit generalizing machine tape seen with
  | zero => simp [run, runWith]
  | succ limit inductionHypothesis =>
      cases work : machine.hasMoreWork with
      | false => simp [run_of_idle work, runWith, work]
      | true =>
          obtain ⟨next, behind, stepped⟩ := exists_step quiet work
          obtain ⟨settledNext, counted⟩ := settled.step work stepped
          have quietNext := quiet_of_step quiet work stepped
          have taken := settledNext.steps_sub quietNext counted limit
          have goesOn : machine.runWith visit cursor (limit + 1) seen tape =
              next.runWith visit cursor limit (visit seen next behind) behind := by
            simp [runWith, work, stepped]
          simp only [goesOn, inductionHypothesis settledNext quietNext, run_of_step work stepped,
            taken, List.range_succ_eq_map, List.map_cons, List.map_map, List.foldl_cons]
          rfl

end TapeMachine.Machine
