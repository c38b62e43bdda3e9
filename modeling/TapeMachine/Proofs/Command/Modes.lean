import TapeMachine.Proofs.Command.Run

/-!
Contract: what the mode that runs and the mode that streams have in common.

Owns: what each of the two modes reports after a number of steps, when these numbers are the same,
and that the picture and the last row then tell the same of the tape.

The mode that runs tests the limit before each step, and the mode that streams tests it behind each
step. With a limit of zero the latter takes one step nevertheless.
-/

namespace TapeMachine.Command

/-- What both modes say before the first step. -/
def prologue (buffer : Buffer) (program : Executable) : String :=
  parsingLine buffer.name ++ compiledLine program

/-- The mode that runs has stopped after a number of steps and reports two rows, which depict the
tape at that time. -/
structure RunReported (options : Options) (program : Executable) (errors : String) (steps : ℕ)
    (marks cells : List Char) (report : Report) : Prop where
  taken : (runAfter options program steps).machine.steps = steps
  reported : report = ⟨0, line (marks ++ '\n' :: cells), errors ++
    if (runAfter options program steps).machine.hasMoreWork then stoppedLine steps
    else finishedLine steps⟩
  depicts : Depicts marks cells (viewAfter options program steps).image

/-- The mode that streams has stopped after a number of steps, and the last row that it reports is
about the tape at that time. -/
structure StreamReported (options : Options) (program : Executable) (errors : String) (steps : ℕ)
    (last : List Char) (report : Report) : Prop where
  taken : (runAfter options program steps).machine.steps = steps
  reported : ∃ rows, report = ⟨0, unlines (rows ++ [last]), errors ++
    if (runAfter options program steps).machine.hasMoreWork then stoppedLine steps else ""⟩
  written : last = ((viewAfter options program steps).withLast true).wire

variable {options : Options} {program : Executable}

theorem Quiet.runReported (quiet : Quiet options program) (errors : String) :
    let run := runAfter options program options.maxSteps
    RunReported options program errors run.machine.steps run.tape.marks run.tape.text
      (runReport options program errors) := by
  intro run
  have stays : runAfter options program run.machine.steps = run := quiet.runAfter_steps _
  refine ⟨by rw [stays], ?_, ?_⟩
  · rw [quiet.runReport_eq, stays]
    rfl
  · rw [viewAfter, stays]
    exact (seated_runAfter options.maxSteps).depicts

theorem Quiet.streamReported (quiet : Quiet options program) (errors : String) :
    let steps := (runAfter options program (max options.maxSteps 1)).machine.steps
    StreamReported options program errors steps
      ((viewAfter options program steps).withLast true).wire
      (jsonReport options program errors) := by
  intro steps
  have stays : runAfter options program steps = runAfter options program (max options.maxSteps 1) :=
    quiet.runAfter_steps _
  obtain ⟨rows, streamed⟩ := quiet.streamedRows_eq_append
  refine ⟨by rw [stays], ⟨rows, ?_⟩, rfl⟩
  rw [quiet.jsonReport_eq, streamed, viewAfter, viewAfter, stays]

/-- The two modes stop after the same number of steps unless there is work and the limit is zero. -/
theorem Quiet.steps_eq_iff (quiet : Quiet options program) :
    (runAfter options program options.maxSteps).machine.steps =
        (runAfter options program (max options.maxSteps 1)).machine.steps ↔
      0 < options.maxSteps ∨ (Machine.start program).hasMoreWork = false := by
  rcases Nat.eq_zero_or_pos options.maxSteps with none | limited
  · have unstepped : (runAfter options program 0).machine.steps = 0 := steps_start
    rw [none, max_eq_right (Nat.zero_le 1), unstepped]
    simp only [Nat.lt_irrefl, false_or]
    cases work : (Machine.start program).hasMoreWork with
    | true => simpa using (quiet.steps_pos work Nat.one_pos).ne
    | false => simp [runAfter, Machine.run_of_idle work, steps_start]
  · simp [limited, max_eq_left (Nat.succ_le_of_lt limited)]

/-- Both modes take as many steps as their limit and the program allow, where a limit of zero is one
for the mode that streams. They stop after the same number of steps unless there is work and the
limit is zero, and whenever they do, what is read back from the last row is what the two rows of the
other mode depict, provided that 64 bits can count the cells. -/
theorem run_and_stream_agree (options : Options) (buffer : Buffer) (program : Executable)
    (compiled : buffer.compile = .ok program) (quiet : Quiet options program) :
    ∃ (ran streamed : ℕ) (marks cells last : List Char),
      (ran : ℕ∞) = min (options.maxSteps : ℕ∞) (duration options program) ∧
      (streamed : ℕ∞) = min ((max options.maxSteps 1 : ℕ) : ℕ∞) (duration options program) ∧
      RunReported options program (prologue buffer program) ran marks cells
        (executeBuffer { options with mode := .run } buffer) ∧
      StreamReported options program (prologue buffer program) streamed last
        (executeBuffer { options with mode := .json } buffer) ∧
      (ran = streamed ↔ 0 < options.maxSteps ∨ (Machine.start program).hasMoreWork = false) ∧
      (ran = streamed → (runAfter options program ran).tape.cells.size ≤ 0x10000000000000000 →
        ∃ view, View.ofWire? last = some view ∧ view.last = some true ∧
          Depicts marks cells view.image) := by
  have runs : executeBuffer { options with mode := .run } buffer =
      runReport options program (prologue buffer program) := by
    rw [executeBuffer, compiled]
    rfl
  have streams : executeBuffer { options with mode := .json } buffer =
      jsonReport options program (prologue buffer program) := by
    rw [executeBuffer, compiled]
    rfl
  have ran := quiet.runReported (prologue buffer program)
  have streamed := quiet.streamReported (prologue buffer program)
  refine ⟨_, _, _, _, _, quiet.steps_runAfter _, quiet.steps_runAfter _, runs ▸ ran,
    streams ▸ streamed, quiet.steps_eq_iff, ?_⟩
  intro same small
  have fits := (fits_viewAfter small).withLast true
  rw [← same]
  exact ⟨_, View.ofWire?_wire fits, rfl, ran.depicts⟩

/-- A program that takes two steps. -/
def movingBuffer : Buffer :=
  Buffer.ofText "right 1;".toList

/-- The options with a limit of steps, on an empty tape. -/
def limitedTo (maxSteps : ℕ) : Options :=
  { Options.default with maxSteps := maxSteps }

theorem run_and_stream_agree_movingBuffer :
    ∃ program marks cells last, movingBuffer.compile = .ok program ∧
      RunReported (limitedTo 2) program (prologue movingBuffer program) 2 marks cells
        (executeBuffer { limitedTo 2 with mode := .run } movingBuffer) ∧
      StreamReported (limitedTo 2) program (prologue movingBuffer program) 2 last
        (executeBuffer { limitedTo 2 with mode := .json } movingBuffer) ∧
      ∃ view, View.ofWire? last = some view ∧ view.last = some true ∧
        Depicts marks cells view.image := by
  have ran : (movingBuffer.compile.toOption.map fun program =>
      ((runAfter (limitedTo 2) program 2).machine.steps,
        (runAfter (limitedTo 2) program 2).tape.cells.size)) = some (2, 2) := by
    decide +kernel
  cases compiled : movingBuffer.compile with
  | error error => simp [compiled, Except.toOption] at ran
  | ok program =>
      simp only [compiled, Except.toOption, Option.map_some, Option.some.injEq,
        Prod.mk.injEq] at ran
      rcases ran with ⟨steps, size⟩
      have quiet : Quiet (limitedTo 2) program := quiet_of_compile compiled _
      obtain ⟨count, streamed, marks, cells, last, taken, -, runs, streams, same, read⟩ :=
        run_and_stream_agree (limitedTo 2) movingBuffer program compiled quiet
      have equal : count = streamed := same.mpr (.inl Nat.two_pos)
      have two : count = 2 := by
        have counted := taken.trans (quiet.steps_runAfter 2).symm
        exact (Nat.cast_inj.mp counted).trans steps
      subst equal two
      have small : (runAfter (limitedTo 2) program 2).tape.cells.size ≤ 0x10000000000000000 :=
        size.le.trans (by decide)
      exact ⟨program, marks, cells, last, rfl, runs, streams, read rfl small⟩

/-- A limit of zero lets one of the modes take a step and the other one none. -/
theorem run_and_stream_differ_movingBuffer :
    (executeBuffer { limitedTo 0 with mode := .run } movingBuffer =
      ⟨0, "v\n_\n", "Parsing String...\nCompiled 2 instructions in main and 0 label(s).\n" ++
        "Stopped after 0 steps (--max-steps).\n"⟩) ∧
    (executeBuffer { limitedTo 0 with mode := .json } movingBuffer).errors =
      "Parsing String...\nCompiled 2 instructions in main and 0 label(s).\n" ++
        "Stopped after 1 steps (--max-steps).\n" := by
  decide +kernel

end TapeMachine.Command
