import TapeMachine.Proofs.Machine.Procedure

/-!
Contract: what a fault leaves of the tape.

Owns: procedures that keep off the tape, that cannot fault, and whose faults spare the tape; how
these come together in a sequence; and the tape behind a step that faults.

A procedure that works in place takes nothing back, so that its faults spare the tape is a matter
of order: whatever may fault comes before the tape is touched, and the rest cannot go wrong.
-/

namespace TapeMachine

namespace Procedure

variable {α β : Type}

/-! ## The discipline -/

/-- What is left of machine and tape, whether there was a fault or not. -/
def behind : EStateM.Result Fault Scene α → Scene
  | .ok _ scene => scene
  | .error _ scene => scene

/-- The tape is not touched at all. -/
def Quiet (procedure : Procedure α) : Prop :=
  ∀ scene, (behind (procedure.run scene)).tape = scene.tape

/-- There is no fault. -/
def Sure (procedure : Procedure α) : Prop :=
  ∀ scene, ∃ value left, procedure.run scene = .ok value left

/-- If there is a fault, the tape has not been touched. -/
def Careful (procedure : Procedure α) : Prop :=
  ∀ scene fault left, procedure.run scene = .error fault left → left.tape = scene.tape

section Discipline

variable {procedure : Procedure α} {next : α → Procedure β}

theorem Quiet.careful (quiet : Quiet procedure) : Careful procedure := by
  intro scene fault left faulted
  have kept := quiet scene
  rw [faulted] at kept
  exact kept

theorem Sure.careful (sure : Sure procedure) : Careful procedure := by
  intro scene fault left faulted
  obtain ⟨value, reached, same⟩ := sure scene
  rw [same] at faulted
  contradiction

theorem Quiet.bind (first : Quiet procedure) (rest : ∀ value, Quiet (next value)) :
    Quiet (procedure >>= next) := by
  intro scene
  have kept := first scene
  rw [EStateM.run_bind]
  cases ran : procedure.run scene with
  | ok value left =>
      rw [ran] at kept
      exact (rest value left).trans kept
  | error fault left =>
      rw [ran] at kept
      exact kept

theorem Sure.bind (first : Sure procedure) (rest : ∀ value, Sure (next value)) :
    Sure (procedure >>= next) := by
  intro scene
  obtain ⟨value, left, ran⟩ := first scene
  rw [EStateM.run_bind, ran]
  exact rest value left

/-- A part that keeps off the tape may come first, whether it faults or not. -/
theorem Quiet.bind_careful (first : Quiet procedure) (rest : ∀ value, Careful (next value)) :
    Careful (procedure >>= next) := by
  intro scene fault left faulted
  have kept := first scene
  rw [EStateM.run_bind] at faulted
  cases ran : procedure.run scene with
  | ok value middle =>
      rw [ran] at faulted kept
      exact (rest value middle fault left faulted).trans kept
  | error earlier middle =>
      rw [ran] at faulted kept
      obtain ⟨-, rfl⟩ := EStateM.Result.error.inj faulted
      exact kept

/-- Once the tape may have been touched, nothing that faults is left to do. -/
theorem Careful.bind_sure (first : Careful procedure) (rest : ∀ value, Sure (next value)) :
    Careful (procedure >>= next) := by
  intro scene fault left faulted
  rw [EStateM.run_bind] at faulted
  cases ran : procedure.run scene with
  | ok value middle =>
      obtain ⟨result, final, same⟩ := rest value middle
      rw [ran] at faulted
      simp only [same] at faulted
      contradiction
  | error earlier middle =>
      rw [ran] at faulted
      obtain ⟨-, rfl⟩ := EStateM.Result.error.inj faulted
      exact first scene earlier middle ran

end Discipline

/-! ## The actions keep the discipline -/

theorem quiet_pure (value : α) : Quiet (pure value) := fun _ => rfl

theorem quiet_throw (fault : Fault) : Quiet (throw fault : Procedure α) := fun _ => rfl

theorem quiet_get : Quiet (get : Procedure Scene) := fun _ => rfl

theorem quiet_getMachine : Quiet getMachine := fun _ => rfl

theorem quiet_change (update : Machine → Machine) : Quiet (change update) := fun _ => rfl

theorem sure_pure (value : α) : Sure (pure value) := fun scene => ⟨value, scene, rfl⟩

theorem sure_change (update : Machine → Machine) : Sure (change update) :=
  fun _ => ⟨(), _, rfl⟩

theorem sure_push (value : Value) : Sure (push value) :=
  sure_change _

theorem sure_postpone (direction : Direction) (remaining : Nat) :
    Sure (postpone direction remaining) := by
  unfold postpone
  split
  · exact sure_change _
  · exact sure_pure ()

theorem quiet_pop (instruction : Instruction) : Quiet (pop instruction) := by
  refine quiet_getMachine.bind fun machine => ?_
  cases machine.stack with
  | nil => exact quiet_throw _
  | cons top rest => exact (quiet_change _).bind fun _ => quiet_pure top

theorem quiet_popAs (expected : ValueType) (view : Value → Option α) (instruction : Instruction) :
    Quiet (popAs expected view instruction) := by
  refine (quiet_pop instruction).bind fun value => ?_
  cases view value with
  | none => exact quiet_throw _
  | some operand => exact quiet_pure operand

theorem quiet_popOperands (comparison : Comparison) : Quiet (popOperands comparison) := by
  refine quiet_getMachine.bind fun machine => ?_
  split
  · exact quiet_throw _
  · exact (quiet_change _).bind fun _ => quiet_pure _

theorem quiet_relocate (offset : Int) : Quiet (relocate offset) := by
  refine quiet_getMachine.bind fun machine => ?_
  cases jumpTarget machine.index offset with
  | none => exact quiet_throw _
  | some target => exact quiet_change _

theorem quiet_enter (label : String) : Quiet (enter label) := by
  refine quiet_getMachine.bind fun machine => ?_
  cases machine.program.labels.get? label with
  | none => exact quiet_throw _
  | some body => exact quiet_change _

theorem quiet_readCell (cursor : CursorId) : Quiet (readCell cursor) := by
  refine quiet_get.bind fun scene => ?_
  cases scene.tape.read cursor with
  | error error => exact quiet_throw _
  | ok glyph => exact quiet_pure glyph

theorem quiet_checkCursor (cursor : CursorId) : Quiet (checkCursor cursor) := by
  refine quiet_get.bind fun scene => ?_
  cases scene.tape.refusal? cursor with
  | some error => exact quiet_throw _
  | none => exact quiet_pure ()

theorem sure_alter (update : Tape → Tape) : Sure (alter update) :=
  fun _ => ⟨(), _, rfl⟩

/-- The cursor is checked before anything is done to the tape. -/
theorem careful_useCursor (cursor : CursorId) (update : Tape → Tape) :
    Careful (useCursor cursor update) :=
  (quiet_checkCursor cursor).bind_careful fun _ => (sure_alter update).careful

/-! ## A fault of a step spares the tape -/

theorem quiet_compare (comparison : Comparison) : Quiet (compare comparison) := by
  refine quiet_getMachine.bind fun machine => (quiet_popOperands comparison).bind fun operands => ?_
  cases comparison.evaluate operands with
  | ok truth => exact (quiet_change _).bind fun _ => quiet_change _
  | error refusal =>
      cases refusal with
      | operand found => exact quiet_throw _
      | count => exact quiet_throw _

theorem careful_move (cursor : CursorId) (direction : Direction) :
    Careful (move cursor direction) := by
  refine (quiet_popAs _ _ _).bind_careful fun distance => ?_
  refine (quiet_change _).bind_careful fun _ => ?_
  split
  · exact (quiet_pure ()).careful
  · exact (careful_useCursor cursor _).bind_sure fun _ => sure_postpone _ _

theorem careful_execute (cursor : CursorId) (instruction : Instruction) :
    Careful (execute cursor instruction) := by
  cases instruction with
  | push value => exact Sure.careful ((sure_push value).bind fun _ => sure_change _)
  | duplicate =>
      refine (quiet_pop _).bind_careful fun top => Sure.careful ?_
      exact (sure_push top).bind fun _ => (sure_push top).bind fun _ => sure_change _
  | compare comparison => exact (quiet_compare comparison).careful
  | read =>
      refine (quiet_readCell cursor).bind_careful fun glyph => Sure.careful ?_
      exact (sure_push _).bind fun _ => sure_change _
  | write =>
      refine (quiet_popAs _ _ _).bind_careful fun glyph => ?_
      exact (careful_useCursor cursor _).bind_sure fun _ => sure_change _
  | move direction => exact careful_move cursor direction
  | jump offset => exact (quiet_relocate offset).careful
  | jumpIf offset =>
      refine (quiet_popAs _ _ _).bind_careful fun truth => Quiet.careful ?_
      cases truth with
      | false => exact quiet_change _
      | true => exact quiet_relocate offset
  | call label => exact (quiet_enter label).careful
  | halt => exact (quiet_change fun machine => { machine with halted := true }.finish).careful

theorem careful_walkOn (cursor : CursorId) (walk : Walk) : Careful (walkOn cursor walk) := by
  refine (quiet_change _).bind_careful fun _ => (careful_useCursor cursor _).bind_sure fun _ => ?_
  exact (sure_postpone _ _).bind fun _ => (sure_change _).bind fun _ => sure_change _

theorem careful_step (cursor : CursorId) : Careful (step cursor) := by
  refine quiet_getMachine.bind_careful fun machine => ?_
  split
  next walk walking => exact careful_walkOn cursor walk
  next still =>
    split
    next ended => exact (quiet_pure ()).careful
    next instructions active =>
      split
      next beyond => exact (quiet_change _).careful
      next instruction found =>
        refine (quiet_change _).bind_careful fun _ => ?_
        exact (careful_execute cursor instruction).bind_sure fun _ => sure_change _

/-! ## Faults -/

/-- A step that faults leaves the tape as it found it, in whatever state the machine and the tape
are and whatever has become of the cursor. That is so for a step that works in place as well, and
such a step ends like the one that decides first, with the same machine or fault and the same
tape. -/
theorem fault_spares_tape (cursor : CursorId) (before : Scene) :
    outcome ((step cursor).run before) = before.machine.step before.tape cursor ∧
      ∀ fault after, (step cursor).run before = .error fault after →
        after.tape = before.tape ∧
          before.machine.step before.tape cursor = (.error fault, before.tape) := by
  have agrees := outcome_step before.machine before.tape cursor
  refine ⟨agrees, fun fault after faulted => ?_⟩
  have kept := careful_step cursor before fault after faulted
  refine ⟨kept, ?_⟩
  rw [← agrees, faulted, outcome, kept]

/-- About to walk two cells to the left, over the edge of the tape, with a cursor that has been
unregistered in the meantime. -/
def strandedMove : Scene where
  machine :=
    { program := ⟨⟨#[.push (.number (-2)), .move .right, .halt], #[]⟩, .empty⟩
      active := some #[.push (.number (-2)), .move .right, .halt]
      routine := .main
      index := 1
      stack := [.number (-2)]
      walk := none
      steps := 1
      halted := false }
  tape := ((Tape.ofText ['a', 'b'] '_').register 1).1.unregister 0

/-- The fault comes when the operand is gone and the index has been moved. -/
theorem fault_spares_tape_strandedMove :
    ∃ after, (step 0).run strandedMove = .error (.cursor (.deadCursor 0)) after ∧
      after.machine.stack = [] ∧ after.machine.index = 2 ∧ after.machine.steps = 2 ∧
        after.tape = strandedMove.tape ∧
          strandedMove.machine.step strandedMove.tape 0 =
            (.error (.cursor (.deadCursor 0)), strandedMove.tape) :=
  ⟨_, rfl, rfl, rfl, rfl, (fault_spares_tape 0 strandedMove).2 _ _ rfl⟩

end Procedure

end TapeMachine
