import TapeMachine.Proofs.Machine.Transition

/-!
Contract: a step as a procedure that works on the machine and the tape in place.

Owns: the procedure of a step, action by action; what the actions do to machine and tape; and the
agreement of the procedure with the step.

`Machine.step` decides first and performs one effect afterwards, so nothing of it can be half done.
A procedure has no such protection: what it has done before a fault stays done. It counts the step,
pops the operands and moves the index before it learns that the cursor is dead.
-/

namespace TapeMachine

/-- A machine and the tape that it works on. -/
structure Scene where
  machine : Machine
  tape : Tape

/-- Actions on a machine and a tape, one after the other. A fault ends them and undoes nothing. -/
abbrev Procedure (α : Type) : Type := EStateM Fault Scene α

namespace Procedure

variable {α β : Type}

/-! ## Actions -/

def getMachine : Procedure Machine := do
  return (← get).machine

def change (update : Machine → Machine) : Procedure Unit :=
  modify fun scene => { scene with machine := update scene.machine }

def push (value : Value) : Procedure Unit :=
  change fun machine => { machine with stack := value :: machine.stack }

def pop (instruction : Instruction) : Procedure Value := do
  let machine ← getMachine
  match machine.stack with
  | [] => throw (.underflow instruction machine.index)
  | top :: rest =>
      change fun machine => { machine with stack := rest }
      return top

/-- Pops a value of a certain type. A value of another type is gone as well. -/
def popAs (expected : ValueType) (view : Value → Option α) (instruction : Instruction) :
    Procedure α := do
  let value ← pop instruction
  match view value with
  | some operand => return operand
  | none => throw (.confusion instruction expected value.type)

/-- Pops the operands of a comparison, in the order in which they were pushed, if there are enough
of them. -/
def popOperands (comparison : Comparison) : Procedure (List Value) := do
  let machine ← getMachine
  if machine.stack.length < comparison.arity then
    throw (.underflow (.compare comparison) machine.index)
  else
    change fun machine => { machine with stack := machine.stack.drop comparison.arity }
    return (machine.stack.take comparison.arity).reverse

def relocate (offset : Int) : Procedure Unit := do
  let machine ← getMachine
  match jumpTarget machine.index offset with
  | some target => change fun machine => { machine with index := target }
  | none => throw (.jumpOutOfRange machine.index offset)

def enter (label : String) : Procedure Unit := do
  let machine ← getMachine
  match machine.program.labels.get? label with
  | some body =>
      change fun machine => { machine with
        active := some body.instructions, routine := .label label, index := 0 }
  | none => throw (.unknownLabel label)

/-- Leaves what is left of a move to later steps. -/
def postpone (direction : Direction) (remaining : Nat) : Procedure Unit :=
  if 0 < remaining then
    change fun machine => { machine with walk := some ⟨direction, remaining⟩ }
  else
    pure ()

/-! ## Actions on the tape -/

/-- Goes on only with a cursor that may be used. -/
def checkCursor (cursor : CursorId) : Procedure Unit := do
  match (← get).tape.refusal? cursor with
  | some error => throw (.cursor error)
  | none => return ()

def alter (update : Tape → Tape) : Procedure Unit :=
  modify fun scene => { scene with tape := update scene.tape }

def readCell (cursor : CursorId) : Procedure Char := do
  match (← get).tape.read cursor with
  | .ok glyph => return glyph
  | .error error => throw (.cursor error)

/-- Changes the tape on behalf of a cursor, which is checked first. -/
def useCursor (cursor : CursorId) (update : Tape → Tape) : Procedure Unit := do
  checkCursor cursor
  alter update

def writeCell (cursor : CursorId) (glyph : Char) : Procedure Unit :=
  useCursor cursor fun tape => tape.put cursor glyph

def walkCell (cursor : CursorId) (direction : Direction) : Procedure Unit :=
  useCursor cursor fun tape => tape.walk cursor 1 direction

/-! ## The step -/

def compare (comparison : Comparison) : Procedure Unit := do
  let instruction := Instruction.compare comparison
  let index := (← getMachine).index
  match comparison.evaluate (← popOperands comparison) with
  | .ok truth =>
      push (.boolean truth)
      change Machine.advance
  | .error (.operand found) => throw (.confusion instruction .boolean found.type)
  | .error (.count _) => throw (.underflow instruction index)

def move (cursor : CursorId) (direction : Direction) : Procedure Unit := do
  let distance ← popAs .number Value.number? (.move direction)
  change Machine.advance
  if distance = 0 then
    return ()
  else
    let direction := if distance < 0 then direction.opposite else direction
    walkCell cursor direction
    postpone direction (distance.natAbs - 1)

def execute (cursor : CursorId) (instruction : Instruction) : Procedure Unit :=
  match instruction with
  | .push value => do
      push value
      change Machine.advance
  | .duplicate => do
      let top ← pop instruction
      push top
      push top
      change Machine.advance
  | .compare comparison => compare comparison
  | .read => do
      let glyph ← readCell cursor
      push (.character glyph)
      change Machine.advance
  | .write => do
      let glyph ← popAs .character Value.character? instruction
      writeCell cursor glyph
      change Machine.advance
  | .move direction => move cursor direction
  | .jump offset => relocate offset
  | .jumpIf offset => do
      let truth ← popAs .boolean Value.boolean? instruction
      if truth then relocate offset else change Machine.advance
  | .call label => enter label
  | .halt => change fun machine => { machine with halted := true }.finish

/-- One more cell of a move. -/
def walkOn (cursor : CursorId) (walk : Walk) : Procedure Unit := do
  change fun machine => { machine with walk := none }
  walkCell cursor walk.direction
  postpone walk.direction (walk.remaining - 1)
  change Machine.countStep
  change Machine.settle

def step (cursor : CursorId) : Procedure Unit := do
  let machine ← getMachine
  match machine.walk with
  | some walk => walkOn cursor walk
  | none =>
      match machine.active with
      | none => return ()
      | some instructions =>
          match instructions[machine.index]? with
          | none => change Machine.finish
          | some instruction =>
              change Machine.countStep
              execute cursor instruction
              change Machine.settle

/-! ## What the actions do -/

@[simp] theorem run_getMachine (scene : Scene) :
    getMachine.run scene = .ok scene.machine scene := rfl

@[simp] theorem run_change (update : Machine → Machine) (scene : Scene) :
    (change update).run scene = .ok () { scene with machine := update scene.machine } := rfl

theorem run_pop (instruction : Instruction) (machine : Machine) (tape : Tape) :
    (pop instruction).run ⟨machine, tape⟩ =
      match machine.stack with
      | [] => .error (.underflow instruction machine.index) ⟨machine, tape⟩
      | top :: rest => .ok top ⟨{ machine with stack := rest }, tape⟩ := by
  simp only [pop, EStateM.run_bind, run_getMachine]
  cases machine.stack <;> rfl

theorem run_popAs (expected : ValueType) (view : Value → Option α) (instruction : Instruction)
    (machine : Machine) (tape : Tape) :
    (popAs expected view instruction).run ⟨machine, tape⟩ =
      match machine.stack with
      | [] => .error (.underflow instruction machine.index) ⟨machine, tape⟩
      | top :: rest =>
          match view top with
          | some operand => .ok operand ⟨{ machine with stack := rest }, tape⟩
          | none =>
              .error (.confusion instruction expected top.type)
                ⟨{ machine with stack := rest }, tape⟩ := by
  simp only [popAs, EStateM.run_bind, run_pop]
  cases machine.stack with
  | nil => rfl
  | cons top rest =>
      simp only
      cases view top <;> rfl

theorem run_useCursor (cursor : CursorId) (update : Tape → Tape) (machine : Machine)
    (tape : Tape) :
    (useCursor cursor update).run ⟨machine, tape⟩ =
      match tape.refusal? cursor with
      | some error => .error (.cursor error) ⟨machine, tape⟩
      | none => .ok () ⟨machine, update tape⟩ := by
  simp only [useCursor, checkCursor, EStateM.run_bind, EStateM.run_get]
  cases tape.refusal? cursor <;> rfl

/-- What is left of a move that has just begun, or been taken up, is all that is pending. -/
theorem run_postpone (machine : Machine) (still : machine.walk = none) (direction : Direction)
    (remaining : Nat) (tape : Tape) :
    (postpone direction remaining).run ⟨machine, tape⟩ =
      .ok () ⟨{ machine with walk := if 0 < remaining then some ⟨direction, remaining⟩ else none },
        tape⟩ := by
  unfold postpone
  split
  · rfl
  · rw [← still]
    rfl

/-! ## The procedure is the step -/

/-- What a step shows of a result: the machine or the fault, and the tape. -/
def outcome : EStateM.Result Fault Scene Unit → Except Fault Machine × Tape
  | .ok _ scene => (.ok scene.machine, scene.tape)
  | .error fault scene => (.error fault, scene.tape)

/-- Performs the effect of a plan, if there is a plan and the cursor allows it. -/
def carryOut (tape : Tape) (cursor : CursorId) :
    Except Fault (Machine × Effect) → Except Fault Machine × Tape
  | .error fault => (.error fault, tape)
  | .ok (machine, effect) =>
      match effect.refusal? tape cursor with
      | some error => (.error (.cursor error), tape)
      | none => (.ok machine, effect.perform tape cursor)

section Agreement

variable (machine : Machine) (tape : Tape) (cursor : CursorId)

theorem outcome_compare (comparison : Comparison) :
    outcome ((compare comparison).run ⟨machine, tape⟩) =
      carryOut tape cursor (machine.execute (tape.read cursor) (.compare comparison)) := by
  simp only [compare, popOperands, Machine.execute, EStateM.run_bind, run_getMachine]
  by_cases few : machine.stack.length < comparison.arity
  · simp only [if_pos few]
    rfl
  · simp only [if_neg few, EStateM.run_bind, run_change, EStateM.run_pure]
    cases comparison.evaluate (machine.stack.take comparison.arity).reverse with
    | ok truth => rfl
    | error refusal =>
        cases refusal with
        | operand found => rfl
        | count => rfl

theorem outcome_read :
    outcome ((execute cursor .read).run ⟨machine, tape⟩) =
      carryOut tape cursor (machine.execute (tape.read cursor) .read) := by
  simp only [execute, readCell, Machine.execute, EStateM.run_bind, EStateM.run_get]
  cases tape.read cursor with
  | ok glyph => rfl
  | error error => rfl

theorem outcome_write :
    outcome ((execute cursor .write).run ⟨machine, tape⟩) =
      carryOut tape cursor (machine.execute (tape.read cursor) .write) := by
  simp only [execute, Machine.execute, EStateM.run_bind, run_popAs]
  cases machine.stack with
  | nil => rfl
  | cons top rest =>
      cases top with
      | character glyph =>
          simp only [Value.character?, writeCell, run_useCursor, carryOut, Effect.refusal?]
          cases tape.refusal? cursor <;> rfl
      | number distance => rfl
      | boolean truth => rfl

/-- A move that begins takes its first cell at once. -/
theorem outcome_move {machine : Machine} (still : machine.walk = none) (direction : Direction) :
    outcome ((move cursor direction).run ⟨machine, tape⟩) =
      carryOut tape cursor (machine.execute (tape.read cursor) (.move direction)) := by
  simp only [move, Machine.execute, EStateM.run_bind, run_popAs]
  cases machine.stack with
  | nil => rfl
  | cons top rest =>
      cases top with
      | number distance =>
          simp only [Value.number?, run_change, Machine.beginMove]
          split
          next standing => rfl
          next moving =>
            simp only [EStateM.run_bind, walkCell, run_useCursor, carryOut, Effect.refusal?]
            cases tape.refusal? cursor with
            | some error => rfl
            | none =>
                have stays : ({ machine with stack := rest } : Machine).advance.walk = none := still
                exact congrArg outcome (run_postpone _ stays _ _ _)
      | character glyph => rfl
      | boolean truth => rfl

theorem outcome_relocate (offset : Int) (glyph : Except TapeError Char) :
    outcome ((relocate offset).run ⟨machine, tape⟩) =
      carryOut tape cursor (machine.execute glyph (.jump offset)) := by
  simp only [relocate, Machine.execute, Machine.relocate, EStateM.run_bind, run_getMachine]
  cases jumpTarget machine.index offset with
  | none => rfl
  | some target => rfl

theorem outcome_jumpIf (offset : Int) :
    outcome ((execute cursor (.jumpIf offset)).run ⟨machine, tape⟩) =
      carryOut tape cursor (machine.execute (tape.read cursor) (.jumpIf offset)) := by
  simp only [execute, Machine.execute, EStateM.run_bind, run_popAs]
  cases machine.stack with
  | nil => rfl
  | cons top rest =>
      cases top with
      | boolean truth =>
          cases truth with
          | false => rfl
          | true =>
              exact outcome_relocate { machine with stack := rest } tape cursor offset
                (tape.read cursor)
      | number distance => rfl
      | character glyph => rfl

theorem outcome_enter (label : String) :
    outcome ((enter label).run ⟨machine, tape⟩) =
      carryOut tape cursor (machine.execute (tape.read cursor) (.call label)) := by
  simp only [enter, Machine.execute, EStateM.run_bind, run_getMachine]
  cases machine.program.labels.get? label with
  | none => rfl
  | some body => rfl

end Agreement

/-- Executing an instruction in place is performing the effect that the instruction plans. -/
theorem outcome_execute {machine : Machine} (still : machine.walk = none) (tape : Tape)
    (cursor : CursorId) (instruction : Instruction) :
    outcome ((execute cursor instruction).run ⟨machine, tape⟩) =
      carryOut tape cursor (machine.execute (tape.read cursor) instruction) := by
  cases instruction with
  | push value => rfl
  | duplicate =>
      simp only [execute, Machine.execute, EStateM.run_bind, run_pop]
      cases machine.stack <;> rfl
  | compare comparison => exact outcome_compare machine tape cursor comparison
  | read => exact outcome_read machine tape cursor
  | write => exact outcome_write machine tape cursor
  | move direction => exact outcome_move tape cursor still direction
  | jump offset => exact outcome_relocate machine tape cursor offset (tape.read cursor)
  | jumpIf offset => exact outcome_jumpIf machine tape cursor offset
  | call label => exact outcome_enter machine tape cursor label
  | halt => rfl

theorem outcome_walkOn {machine : Machine} {walk : Walk} (tape : Tape) (cursor : CursorId)
    (walking : machine.walk = some walk) :
    outcome ((walkOn cursor walk).run ⟨machine, tape⟩) =
      carryOut tape cursor (machine.plan (tape.read cursor)) := by
  simp only [walkOn, Machine.plan, walking, EStateM.run_bind, run_change, walkCell, run_useCursor,
    carryOut, Effect.refusal?]
  cases tape.refusal? cursor with
  | some error => rfl
  | none =>
      simp only
      rw [run_postpone _ rfl]
      have pending : 0 < walk.remaining - 1 ↔ 1 < walk.remaining := by omega
      simp only [pending]
      rfl

/-- What is done to the machine behind a procedure has no part in its faults. -/
theorem outcome_bind_change (procedure : Procedure Unit) (update : Machine → Machine)
    (scene : Scene) :
    outcome ((procedure >>= fun _ => change update).run scene) =
      Prod.map (Except.map update) id (outcome (procedure.run scene)) := by
  rw [EStateM.run_bind]
  cases procedure.run scene <;> rfl

/-- Working in place is deciding first and performing the effect afterwards. -/
theorem outcome_step (machine : Machine) (tape : Tape) (cursor : CursorId) :
    outcome ((step cursor).run ⟨machine, tape⟩) = machine.step tape cursor := by
  have planned :
      machine.step tape cursor = carryOut tape cursor (machine.plan (tape.read cursor)) := rfl
  rw [planned]
  simp only [step, EStateM.run_bind, run_getMachine]
  cases walking : machine.walk with
  | some walk => exact outcome_walkOn tape cursor walking
  | none =>
      simp only [Machine.plan, walking]
      cases machine.active with
      | none => rfl
      | some instructions =>
          simp only
          cases instructions[machine.index]? with
          | none => rfl
          | some instruction =>
              have still : machine.countStep.walk = none := walking
              have executed := outcome_execute still tape cursor instruction
              rw [EStateM.run_bind, run_change]
              simp only [outcome_bind_change, executed]
              cases machine.countStep.execute (tape.read cursor) instruction with
              | error fault => rfl
              | ok planned =>
                  simp only [carryOut]
                  cases planned.2.refusal? tape cursor <;> rfl

end Procedure

end TapeMachine
