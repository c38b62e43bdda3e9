import TapeMachine.Command.Execute
import TapeMachine.Proofs.Machine.Duration
import TapeMachine.Proofs.Machine.Ensemble
import TapeMachine.Proofs.Machine.Footprint
import TapeMachine.Proofs.Snapshot.Wire
import TapeMachine.Proofs.Tape.Picture

/-!
Contract: the run behind the modes of the command.

Owns: the run that options ask for after each number of steps, what its cursor sees, the number of
steps to its end, that its cursor stays on the tape, and the reports of the mode that runs and of
the mode that streams in terms of it.

A tape has fewer cells than 64 bits can count. The tapes here have no such bound; it is stated where
positions are read back.
-/

namespace TapeMachine

theorem Machine.seated_run {machine : Machine} {cursor : CursorId} {tape : Tape}
    (seated : tape.Seated) (limit : ℕ) : (machine.run cursor limit tape).tape.Seated := by
  induction limit generalizing machine tape with
  | zero => exact seated
  | succ limit inductionHypothesis =>
      cases work : machine.hasMoreWork with
      | false => rwa [run_of_idle work]
      | true =>
          rcases stepped : machine.step tape cursor with ⟨outcome, behind⟩
          cases outcome with
          | error fault =>
              simpa [run, runWith, work, stepped, tape_of_fault stepped] using seated
          | ok next =>
              obtain ⟨effect, -, accepted, rfl⟩ := step_ok stepped
              rw [run_of_step work stepped]
              exact inductionHypothesis (seated.perform accepted)

namespace Command

section Runs

variable (options : Options) (program : Executable)

/-- The run of a program on the tape of the options, after a number of steps. -/
def runAfter (count : ℕ) : Machine.Run Unit :=
  (Machine.start program).run (startTape options).2 count (startTape options).1

/-- What the cursor sees after a number of steps. -/
def viewAfter (count : ℕ) : View :=
  (runAfter options program count).tape.view (startTape options).2

/-- The number of steps to the end of the run. -/
noncomputable def duration : ℕ∞ :=
  (Machine.start program).duration (startTape options).2 (startTape options).1

/-- No step of the run faults. -/
def Quiet : Prop :=
  ∀ count, (runAfter options program count).fault = none

variable {options program}

theorem startTape_snd : (startTape options).2 = 0 := by
  simp [startTape, Tape.ofText, Tape.load, Tape.reset, Tape.growTo, Tape.blank]

theorem seated_startTape : (startTape options).1.Seated :=
  Tape.Seated.respond (Tape.seated_load _ _) (.register options.start)

theorem seated_runAfter (count : ℕ) : (runAfter options program count).tape.Seated :=
  Machine.seated_run seated_startTape count

/-- What is seen of a tape with fewer cells than 64 bits can count fits the format. -/
theorem fits_viewAfter {count : ℕ}
    (small : (runAfter options program count).tape.cells.size ≤ 0x10000000000000000) :
    (viewAfter options program count).Fits where
  identifier := by
    simp [viewAfter, Tape.view, startTape_snd]
  pointers := by
    intro pointer member
    obtain ⟨slot, present, rfl⟩ := List.mem_map.mp member
    have onCells := (seated_runAfter count).onCells slot (Array.mem_toList_iff.mp present)
    exact Nat.lt_of_lt_of_le onCells small

theorem steps_start : (Machine.start program).steps = 0 :=
  Machine.settle_steps _

/-- A run takes as many steps as its limit and its program allow. -/
theorem Quiet.steps_runAfter (quiet : Quiet options program) (limit : ℕ) :
    ((runAfter options program limit).machine.steps : ℕ∞) =
      min (limit : ℕ∞) (duration options program) := by
  have steps := (Machine.settled_start program).steps_run quiet limit
  rwa [steps_start, Nat.cast_zero, zero_add] at steps

theorem Quiet.runAfter_steps (quiet : Quiet options program) (limit : ℕ) :
    runAfter options program (runAfter options program limit).machine.steps =
      runAfter options program limit := by
  have same := (Machine.settled_start program).run_eq quiet limit
  rwa [steps_start, Nat.sub_zero] at same

theorem Quiet.idle_iff (quiet : Quiet options program) (count : ℕ) :
    (runAfter options program count).machine.hasMoreWork = false ↔
      duration options program ≤ count :=
  Machine.idle_iff_duration_le quiet count

theorem Quiet.count_of_le (quiet : Quiet options program) {count limit : ℕ}
    (within : count ≤ (runAfter options program limit).machine.steps) :
    (runAfter options program count).machine.steps = count := by
  have inside : (count : ℕ∞) ≤ duration options program := by
    refine le_trans (Nat.cast_le.mpr within) ?_
    rw [quiet.steps_runAfter]
    exact min_le_right _ _
  have steps := quiet.steps_runAfter count
  rw [min_eq_left inside] at steps
  exact Nat.cast_inj.mp steps

/-- What has work left takes a step. -/
theorem Quiet.steps_pos (quiet : Quiet options program)
    (work : (Machine.start program).hasMoreWork = true) {limit : ℕ} (limited : 0 < limit) :
    0 < (runAfter options program limit).machine.steps := by
  have busy : ¬ duration options program ≤ (0 : ℕ) := by
    rw [← quiet.idle_iff, Bool.not_eq_false]
    exact work
  have positive : ((0 : ℕ) : ℕ∞) < (runAfter options program limit).machine.steps := by
    rw [quiet.steps_runAfter]
    exact lt_min (Nat.cast_lt.mpr limited) (lt_of_not_ge busy)
  exact Nat.cast_lt.mp positive

/-- The program of an accepted text never faults. -/
theorem quiet_of_compile {text : List Char}
    (compiled : (Buffer.ofText text).compile = .ok program) (options : Options) :
    Quiet options program := by
  have safe := Machine.safe_start (Ensemble.sound_of_compile compiled)
  have alive : (startTape options).1.isAlive (startTape options).2 = true := by
    simp [startTape, Tape.isAlive_register]
  exact safe.run alive

/-! ## Reports -/

/-- The mode that runs reports the tape after as many steps as the limit allows. -/
theorem Quiet.runReport_eq (quiet : Quiet options program) (errors : String) :
    let run := runAfter options program options.maxSteps
    runReport options program errors =
      ⟨0, line run.tape.picture, errors ++
        if run.machine.hasMoreWork then stoppedLine run.machine.steps
        else finishedLine run.machine.steps⟩ := by
  have noFault := quiet options.maxSteps
  simp only [runAfter] at noFault ⊢
  simp only [runReport, noFault]
  rfl

/-- Rows with a line feed behind each of them. -/
def unlines (rows : List (List Char)) : String :=
  String.ofList (rows.flatMap (· ++ ['\n']))

theorem toList_unlines (rows : List (List Char)) :
    (unlines rows).toList = rows.flatMap (· ++ ['\n']) :=
  String.toList_ofList

theorem foldl_line {σ : Type} (render : σ → List Char) (states : List σ) (before : String) :
    states.foldl (fun output state => output ++ line (render state)) before =
      before ++ unlines (states.map render) := by
  induction states generalizing before with
  | nil => simp [unlines]
  | cons state states inductionHypothesis =>
      rw [List.foldl_cons, inductionHypothesis]
      apply String.toList_inj.mp
      simp [toList_unlines, line]

/-- One row for each of a number of steps; the last one says that it is the last. -/
def rowsUpTo (options : Options) (program : Executable) (count : ℕ) : List (List Char) :=
  (List.range count).map fun index =>
    ((viewAfter options program (index + 1)).withLast (decide (index + 1 = count))).wire

@[simp]
theorem length_rowsUpTo (options : Options) (program : Executable) (count : ℕ) :
    (rowsUpTo options program count).length = count := by
  simp [rowsUpTo]

theorem getElem_rowsUpTo {count index : ℕ}
    (inside : index < (rowsUpTo options program count).length) :
    (rowsUpTo options program count)[index] =
      ((viewAfter options program (index + 1)).withLast (decide (index + 1 = count))).wire := by
  simp [rowsUpTo]

theorem exists_rowsUpTo_succ (count : ℕ) :
    ∃ rows, rowsUpTo options program (count + 1) =
      rows ++ [((viewAfter options program (count + 1)).withLast true).wire] := by
  rw [rowsUpTo, List.range_succ, List.map_append, List.map_singleton, decide_eq_true rfl]
  exact ⟨_, rfl⟩

/-- The state after a step is the last that is sent exactly if it is the last that is reached. -/
theorem Quiet.isLast_eq (quiet : Quiet options program) {count total : ℕ}
    (reached : (runAfter options program (max options.maxSteps 1)).machine.steps = total)
    (positive : 0 < count) (within : count ≤ total) :
    isLast options (runAfter options program count).machine = decide (count = total) := by
  have counted := quiet.count_of_le (reached ▸ within)
  have idle := quiet.idle_iff count
  have steps := quiet.steps_runAfter (max options.maxSteps 1)
  rw [reached] at steps
  rw [isLast, counted, Bool.eq_iff_iff]
  simp only [Bool.or_eq_true, Bool.not_eq_true', idle, decide_eq_true_eq]
  constructor
  · rintro (ended | limited)
    · have enough : (total : ℕ∞) ≤ count := steps ▸ le_trans (min_le_right _ _) ended
      exact Nat.le_antisymm within (Nat.cast_le.mp enough)
    · have enough : (total : ℕ∞) ≤ (max options.maxSteps 1 : ℕ) := steps ▸ min_le_left _ _
      have bound := Nat.cast_le.mp enough
      omega
  · rintro rfl
    let limit := max options.maxSteps 1
    rcases min_choice (limit : ℕ∞) (duration options program) with same | same
    · rw [same, Nat.cast_inj] at steps
      exact .inr (by omega)
    · exact .inl (by rw [steps, same])

/-- The mode that streams reports one row after each step, and takes at least one if there is
work. -/
theorem Quiet.jsonReport_of_work (quiet : Quiet options program)
    (work : (Machine.start program).hasMoreWork = true) (errors : String) :
    let run := runAfter options program (max options.maxSteps 1)
    jsonReport options program errors =
      ⟨0, unlines (rowsUpTo options program run.machine.steps), errors ++
        if run.machine.hasMoreWork then stoppedLine run.machine.steps else ""⟩ := by
  intro run
  have visited := (Machine.settled_start program).runWith_eq
    (fun (output : String) machine tape =>
      output ++ line ((tape.view (startTape options).2).withLast (isLast options machine)).wire)
    quiet (max options.maxSteps 1) ""
  have rows : (List.range run.machine.steps).map (fun index =>
      (((runAfter options program (index + 1)).tape.view (startTape options).2).withLast
        (isLast options (runAfter options program (index + 1)).machine)).wire) =
      rowsUpTo options program run.machine.steps := by
    refine List.map_congr_left fun index member => ?_
    rw [quiet.isLast_eq rfl (Nat.succ_pos index) (List.mem_range.mp member)]
    rfl
  simp only [steps_start, Nat.sub_zero] at visited
  rw [foldl_line (fun state : Machine.Run Unit =>
    ((state.tape.view (startTape options).2).withLast (isLast options state.machine)).wire),
    List.map_map, String.empty_append] at visited
  simp only [jsonReport, work, ↓reduceIte, visited]
  exact rows ▸ rfl

theorem jsonReport_of_idle (idle : (Machine.start program).hasMoreWork = false) (errors : String) :
    jsonReport options program errors =
      ⟨0, unlines [((viewAfter options program 0).withLast true).wire], errors⟩ := by
  have single (row : List Char) : line row = unlines [row] := by
    apply String.toList_inj.mp
    simp [toList_unlines, line]
  simp only [jsonReport, idle, Bool.false_eq_true, ↓reduceIte, single]
  rfl

/-- One row for each step, or one for the beginning if there is no work. -/
def streamedRows (options : Options) (program : Executable) : List (List Char) :=
  if (Machine.start program).hasMoreWork then
    rowsUpTo options program (runAfter options program (max options.maxSteps 1)).machine.steps
  else [((viewAfter options program 0).withLast true).wire]

theorem streamedRows_of_work (work : (Machine.start program).hasMoreWork = true) :
    streamedRows options program =
      rowsUpTo options program (runAfter options program (max options.maxSteps 1)).machine.steps :=
  if_pos work

theorem streamedRows_of_idle (idle : (Machine.start program).hasMoreWork = false) :
    streamedRows options program = [((viewAfter options program 0).withLast true).wire] :=
  if_neg (Bool.not_eq_true _ ▸ idle)

/-- The mode that streams takes at least one step if there is work. -/
theorem Quiet.jsonReport_eq (quiet : Quiet options program) (errors : String) :
    let run := runAfter options program (max options.maxSteps 1)
    jsonReport options program errors =
      ⟨0, unlines (streamedRows options program), errors ++
        if run.machine.hasMoreWork then stoppedLine run.machine.steps else ""⟩ := by
  cases work : (Machine.start program).hasMoreWork with
  | true => simp only [streamedRows_of_work work, quiet.jsonReport_of_work work]
  | false =>
      have stays (limit : ℕ) : (runAfter options program limit).machine.hasMoreWork = false := by
        rw [runAfter, Machine.run_of_idle work, work]
      simp only [streamedRows_of_idle work, jsonReport_of_idle work, stays, Bool.false_eq_true,
        ↓reduceIte, String.append_empty]

/-- The last row shows the tape at the end of what is run, and says that it is the last. -/
theorem Quiet.streamedRows_eq_append (quiet : Quiet options program) :
    ∃ rows, streamedRows options program =
      rows ++ [((viewAfter options program (max options.maxSteps 1)).withLast true).wire] := by
  have seen : viewAfter options program (max options.maxSteps 1) =
      viewAfter options program
        (runAfter options program (max options.maxSteps 1)).machine.steps := by
    rw [viewAfter, viewAfter, quiet.runAfter_steps]
  cases work : (Machine.start program).hasMoreWork with
  | true =>
      have limited : 0 < max options.maxSteps 1 := lt_max_of_lt_right Nat.one_pos
      have positive := quiet.steps_pos work limited
      obtain ⟨others, taken⟩ := Nat.exists_eq_add_one.mpr positive
      rw [streamedRows_of_work work, seen, taken]
      exact exists_rowsUpTo_succ others
  | false =>
      refine ⟨[], ?_⟩
      have stays : viewAfter options program (max options.maxSteps 1) =
          viewAfter options program 0 := by
        simp only [viewAfter, runAfter, Machine.run_of_idle work]
      rw [streamedRows_of_idle work, stays, List.nil_append]

end Runs

end Command

end TapeMachine
