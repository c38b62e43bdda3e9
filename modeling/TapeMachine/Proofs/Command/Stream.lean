import TapeMachine.Proofs.Command.Run

/-!
Contract: what is streamed of a run.

Owns: what a row tells of the tape after a number of steps, and that there is one row for each step,
of which only the last one says that it is the last.
-/

namespace TapeMachine

/-- A view shows a tape to a cursor. -/
structure View.Shows (view : View) (cursor : CursorId) (tape : Tape) : Prop where
  identifier : view.identifier = cursor
  contents : view.image.contents.toList = tape.text
  pointers : view.image.pointers = tape.slots.toList.map Slot.position
  alive : view.image.alive = tape.slots.toList.map Slot.alive

theorem Tape.shows_view (tape : Tape) (cursor : CursorId) (last : Bool) :
    ((tape.view cursor).withLast last).Shows cursor tape :=
  ⟨rfl, tape.contents_image, rfl, rfl⟩

namespace Command

/-- A row holds what the cursor sees after a number of steps and whether that is the last row, and
all of it can be read back, provided that 64 bits can count the cells. -/
structure RowAfter (options : Options) (program : Executable) (count : ℕ) (last : Bool)
    (row : List Char) : Prop where
  taken : (runAfter options program count).machine.steps = count
  written : row = ((viewAfter options program count).withLast last).wire
  read : (runAfter options program count).tape.cells.size ≤ 0x10000000000000000 →
    ∃ view, View.ofWire? row = some view ∧ view.last = some last ∧
      view.Shows (startTape options).2 (runAfter options program count).tape

variable {options : Options} {program : Executable}

theorem rowAfter {count : ℕ} (taken : (runAfter options program count).machine.steps = count)
    (last : Bool) :
    RowAfter options program count last ((viewAfter options program count).withLast last).wire := by
  refine ⟨taken, rfl, ?_⟩
  intro small
  have fits := (fits_viewAfter small).withLast last
  exact ⟨_, View.ofWire?_wire fits, rfl, Tape.shows_view _ _ last⟩

/-- What is streamed of a run that never faults is rows with a line feed behind each of them and at
least one of them. If there is work, they are as many as the limit and the work allow, and each of
them shows the tape after one step more than the one before; if there is none, the only one shows
the tape at the beginning. The last row says that it is the last, and no other one does. -/
theorem stream_has_row_per_step (options : Options) (buffer : Buffer) (program : Executable)
    (streams : options.mode = .json) (compiled : buffer.compile = .ok program)
    (quiet : Quiet options program) (limited : 0 < options.maxSteps) :
    ∃ rows : List (List Char),
      (executeBuffer options buffer).output = unlines rows ∧
      (∀ row ∈ rows, '\n' ∉ row) ∧ rows ≠ [] ∧
      ((Machine.start program).hasMoreWork = true →
        (rows.length : ℕ∞) = min (options.maxSteps : ℕ∞) (duration options program) ∧
          ∀ index (inside : index < rows.length),
            RowAfter options program (index + 1) (index + 1 = rows.length) rows[index]) ∧
      ((Machine.start program).hasMoreWork = false →
        ∃ row, rows = [row] ∧ RowAfter options program 0 true row) := by
  have limit : max options.maxSteps 1 = options.maxSteps := max_eq_left limited
  have output : (executeBuffer options buffer).output = unlines (streamedRows options program) := by
    simp only [executeBuffer, compiled, streams, quiet.jsonReport_eq]
  refine ⟨streamedRows options program, output, ?_⟩
  cases work : (Machine.start program).hasMoreWork with
  | false =>
      rw [streamedRows_of_idle work]
      have beginning : (runAfter options program 0).machine.steps = 0 := steps_start
      refine ⟨?_, List.cons_ne_nil _ _, nofun, fun _ => ⟨_, rfl, rowAfter beginning true⟩⟩
      simp only [List.mem_singleton, forall_eq, View.noFeed_wire, not_false_eq_true]
  | true =>
      rw [streamedRows_of_work work, limit]
      refine ⟨?_, ?_, ?_, nofun⟩
      · intro row member
        obtain ⟨index, -, rfl⟩ := List.mem_map.mp member
        exact View.noFeed_wire _
      · apply List.ne_nil_of_length_pos
        exact (length_rowsUpTo _ _ _).symm ▸ quiet.steps_pos work limited
      · rintro -
        refine ⟨(length_rowsUpTo _ _ _).symm ▸ quiet.steps_runAfter _, ?_⟩
        intro index inside
        rw [getElem_rowsUpTo, length_rowsUpTo]
        rw [length_rowsUpTo] at inside
        exact rowAfter (quiet.count_of_le inside) _

/-- A move that the limit of steps cuts short. -/
def leavingText : List Char :=
  "left 9;".toList

def leavingOptions : Options :=
  { Options.default with mode := .json, tape := "ab".toList, maxSteps := 4 }

theorem stream_has_row_per_step_leavingText :
    ∃ program rows, (Buffer.ofText leavingText).compile = .ok program ∧
      (executeBuffer leavingOptions (Buffer.ofText leavingText)).output = unlines rows ∧
      rows.length = 4 ∧ ∀ index (inside : index < rows.length),
        RowAfter leavingOptions program (index + 1) (index + 1 = rows.length) rows[index] := by
  have ran : ((Buffer.ofText leavingText).compile.toOption.map fun program =>
      ((Machine.start program).hasMoreWork,
        (runAfter leavingOptions program 4).machine.steps)) = some (true, 4) := by
    decide +kernel
  cases compiled : (Buffer.ofText leavingText).compile with
  | error error =>
      rw [compiled] at ran
      contradiction
  | ok program =>
      have quiet := quiet_of_compile compiled leavingOptions
      obtain ⟨rows, output, -, -, busy, -⟩ := stream_has_row_per_step leavingOptions
        (Buffer.ofText leavingText) program rfl compiled quiet (by decide)
      simp only [compiled, Except.toOption, Option.map_some, Option.some.injEq,
        Prod.mk.injEq] at ran
      obtain ⟨length, shown⟩ := busy ran.1
      refine ⟨program, rows, rfl, output, ?_, shown⟩
      rw [← Nat.cast_inj (R := ℕ∞), length, ← ran.2]
      exact (quiet.steps_runAfter 4).symm

end Command

end TapeMachine
