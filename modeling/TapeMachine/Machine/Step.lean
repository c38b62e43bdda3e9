import TapeMachine.Machine.Basic

/-!
Contract: the execution of a program, one unit of effect at a time.

Owns: what an instruction does to a machine, the one effect that a step has on the tape, the step,
and runs of many steps.

A step is one instruction or one cell of a move. First the machine decides, from its state and the
character under the cursor, what it becomes and which effect it has; then the effect is performed.
A step that faults leaves the tape as it is. A move by zero cells is one step without an effect,
and a negative distance walks the other way.
-/

namespace TapeMachine

inductive Effect where
  | none
  | write (glyph : Char)
  | walk (direction : Direction)
deriving DecidableEq, Repr

namespace Effect

/-- The error that the effect meets with a cursor; no effect meets none. -/
def refusal? (effect : Effect) (tape : Tape) (cursor : CursorId) : Option TapeError :=
  match effect with
  | .none => .none
  | .write _ => tape.refusal? cursor
  | .walk _ => tape.refusal? cursor

def perform (effect : Effect) (tape : Tape) (cursor : CursorId) : Tape :=
  match effect with
  | .none => tape
  | .write glyph => tape.put cursor glyph
  | .walk direction => tape.walk cursor 1 direction

end Effect

namespace Machine

def advance (machine : Machine) : Machine :=
  { machine with index := machine.index + 1 }

def relocate (machine : Machine) (offset : Int) : Except Fault Machine :=
  match jumpTarget machine.index offset with
  | some index => .ok { machine with index := index }
  | none => .error (.jumpOutOfRange machine.index offset)

/-- Begins a move: the first cell at once, the others are left for later steps. -/
def beginMove (machine : Machine) (distance : Int) (direction : Direction) :
    Machine × Effect :=
  if distance = 0 then (machine, .none)
  else
    let direction := if distance < 0 then direction.opposite else direction
    let remaining := distance.natAbs - 1
    ({ machine with walk := if 0 < remaining then some ⟨direction, remaining⟩ else none },
      .walk direction)

/-- What an instruction makes of a machine and does to the tape, given what the cursor reads. -/
def execute (machine : Machine) (glyph : Except TapeError Char) (instruction : Instruction) :
    Except Fault (Machine × Effect) :=
  let underflow : Except Fault (Machine × Effect) :=
    .error (.underflow instruction machine.index)
  let confusion (expected : ValueType) (found : Value) : Except Fault (Machine × Effect) :=
    .error (.confusion instruction expected found.type)
  match instruction with
  | .push value => .ok ({ machine with stack := value :: machine.stack }.advance, .none)
  | .duplicate =>
      match machine.stack with
      | [] => underflow
      | top :: rest => .ok ({ machine with stack := top :: top :: rest }.advance, .none)
  | .compare comparison =>
      if machine.stack.length < comparison.arity then underflow
      else
        let operands := (machine.stack.take comparison.arity).reverse
        let rest := machine.stack.drop comparison.arity
        match comparison.evaluate operands with
        | .ok truth => .ok ({ machine with stack := .boolean truth :: rest }.advance, .none)
        | .error (.operand found) => confusion .boolean found
        | .error (.count _) => underflow
  | .read =>
      match glyph with
      | .ok glyph =>
          .ok ({ machine with stack := .character glyph :: machine.stack }.advance, .none)
      | .error error => .error (.cursor error)
  | .write =>
      match machine.stack with
      | [] => underflow
      | .character glyph :: rest => .ok ({ machine with stack := rest }.advance, .write glyph)
      | found :: _ => confusion .character found
  | .move direction =>
      match machine.stack with
      | [] => underflow
      | .number distance :: rest =>
          .ok ({ machine with stack := rest }.advance.beginMove distance direction)
      | found :: _ => confusion .number found
  | .jump offset =>
      match machine.relocate offset with
      | .ok machine => .ok (machine, .none)
      | .error fault => .error fault
  | .jumpIf offset =>
      match machine.stack with
      | [] => underflow
      | .boolean true :: rest =>
          match { machine with stack := rest }.relocate offset with
          | .ok machine => .ok (machine, .none)
          | .error fault => .error fault
      | .boolean false :: rest => .ok ({ machine with stack := rest }.advance, .none)
      | found :: _ => confusion .boolean found
  | .call label =>
      match machine.program.labels.get? label with
      | some body =>
          .ok ({ machine with
            active := some body.instructions, routine := .label label, index := 0 }, .none)
      | none => .error (.unknownLabel label)
  | .halt => .ok ({ machine with halted := true }.finish, .none)

def countStep (machine : Machine) : Machine :=
  { machine with steps := machine.steps + 1 }

/-- What a step makes of a machine and does to the tape, given what the cursor reads. A machine
without work stays as it is. -/
def plan (machine : Machine) (glyph : Except TapeError Char) : Except Fault (Machine × Effect) :=
  match machine.walk with
  | some ⟨direction, remaining⟩ =>
      let walk := if 1 < remaining then some ⟨direction, remaining - 1⟩ else none
      .ok ({ machine with walk := walk }.countStep.settle, .walk direction)
  | none =>
      match machine.active with
      | none => .ok (machine, .none)
      | some instructions =>
          match instructions[machine.index]? with
          | none => .ok (machine.finish, .none)
          | some instruction =>
              match machine.countStep.execute glyph instruction with
              | .ok (machine, effect) => .ok (machine.settle, effect)
              | .error fault => .error fault

/-- One unit of effect: the machine after it, or the fault that prevents it, and the tape. -/
def step (machine : Machine) (tape : Tape) (cursor : CursorId) : Except Fault Machine × Tape :=
  match machine.plan (tape.read cursor) with
  | .error fault => (.error fault, tape)
  | .ok (machine, effect) =>
      match effect.refusal? tape cursor with
      | some error => (.error (.cursor error), tape)
      | none => (.ok machine, effect.perform tape cursor)

/-- How a run has ended: the machine and the tape after the last step that was executed, the fault
of the step behind it, and what was gathered on the way. -/
structure Run (σ : Type) where
  machine : Machine
  tape : Tape
  fault : Option Fault
  seen : σ

/-- Steps as long as there is work, at most a number of times, and gathers something after every
step. -/
def runWith {σ : Type} (visit : σ → Machine → Tape → σ) (cursor : CursorId) :
    Nat → σ → Machine → Tape → Run σ
  | 0, seen, machine, tape => ⟨machine, tape, none, seen⟩
  | limit + 1, seen, machine, tape =>
      if machine.hasMoreWork then
        match machine.step tape cursor with
        | (.error fault, tape) => ⟨machine, tape, some fault, seen⟩
        | (.ok next, tape) => runWith visit cursor limit (visit seen next tape) next tape
      else ⟨machine, tape, none, seen⟩

def run (cursor : CursorId) (limit : Nat) (machine : Machine) (tape : Tape) : Run Unit :=
  runWith (fun _ _ _ => ()) cursor limit () machine tape

end Machine

end TapeMachine
