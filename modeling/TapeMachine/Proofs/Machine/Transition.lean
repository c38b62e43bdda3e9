import TapeMachine.Machine.Step
import TapeMachine.Proofs.Code.StackHeight

/-!
Contract: what a step can make of a machine.

Owns: the ways in which an executed instruction, a planned step and a step without a fault can end.
-/

namespace TapeMachine.Machine

/-- What executing an instruction can make of a machine: it enters the body of a label with the
stack as it is, its run ends, or it goes on in the same sequence. -/
inductive Proceeds (machine : Machine) (instruction : Instruction) (next : Machine) : Prop where
  | call {label : String} {body : Sequence} (same : instruction = .call label)
      (found : machine.program.labels.get? label = some body)
      (entered : next = { machine with
        active := some body.instructions, routine := .label label, index := 0 })
  | halt (same : instruction = .halt) (ended : next = { machine with halted := true }.finish)
  | go (program : next.program = machine.program) (active : next.active = machine.active)
      (steps : next.steps = machine.steps)
      (walk : ∀ walk, next.walk = some walk → machine.walk = some walk ∨ 0 < walk.remaining)
      (stack : next.stack.length + instruction.taken = machine.stack.length + instruction.given)
      (index : next.index = machine.index + 1 ∨
        instruction.target? machine.index = some next.index)
      (routine : next.routine = machine.routine)

theorem relocate_ok {machine next : Machine} {offset : Int}
    (relocated : machine.relocate offset = .ok next) :
    ∃ target, jumpTarget machine.index offset = some target ∧
      next = { machine with index := target } := by
  unfold relocate at relocated
  split at relocated
  next target found => exact ⟨target, found, (Except.ok.inj relocated).symm⟩
  next => contradiction

theorem beginMove_fst (machine : Machine) (distance : Int) (direction : Direction) :
    ∃ pending, (machine.beginMove distance direction).1 = { machine with walk := pending } ∧
      ∀ walk, pending = some walk → machine.walk = some walk ∨ 0 < walk.remaining := by
  unfold beginMove
  split
  · exact ⟨machine.walk, rfl, fun _ => .inl⟩
  · refine ⟨_, rfl, ?_⟩
    rintro walk same
    split at same
    next positive =>
      obtain rfl := Option.some.inj same
      exact .inr positive
    next => contradiction

/-- What an instruction makes of a machine and does to the tape, where it does not fault. -/
inductive Executes (machine : Machine) (glyph : Except TapeError Char) :
    Instruction → Machine → Effect → Prop where
  | push {value : Value} :
      Executes machine glyph (.push value)
        ({ machine with stack := value :: machine.stack } : Machine).advance .none
  | duplicate {top : Value} {rest : List Value} (same : machine.stack = top :: rest) :
      Executes machine glyph .duplicate
        ({ machine with stack := top :: top :: rest } : Machine).advance .none
  | compare {comparison : Comparison} {truth : Bool}
      (enough : comparison.arity ≤ machine.stack.length)
      (evaluated : comparison.evaluate (machine.stack.take comparison.arity).reverse = .ok truth) :
      Executes machine glyph (.compare comparison)
        ({ machine with
          stack := .boolean truth :: machine.stack.drop comparison.arity } : Machine).advance .none
  | read {found : Char} (same : glyph = .ok found) :
      Executes machine glyph .read
        ({ machine with stack := .character found :: machine.stack } : Machine).advance .none
  | write {written : Char} {rest : List Value} (same : machine.stack = .character written :: rest) :
      Executes machine glyph .write ({ machine with stack := rest } : Machine).advance
        (.write written)
  | move {direction : Direction} {distance : Int} {rest : List Value}
      (same : machine.stack = .number distance :: rest) :
      Executes machine glyph (.move direction)
        (({ machine with stack := rest } : Machine).advance.beginMove distance direction).1
        (({ machine with stack := rest } : Machine).advance.beginMove distance direction).2
  | jump {offset : Int} {target : Nat} (found : jumpTarget machine.index offset = some target) :
      Executes machine glyph (.jump offset) { machine with index := target } .none
  | jumpIf {offset : Int} {target : Nat} {rest : List Value}
      (same : machine.stack = .boolean true :: rest)
      (found : jumpTarget machine.index offset = some target) :
      Executes machine glyph (.jumpIf offset) { machine with stack := rest, index := target } .none
  | pass {offset : Int} {rest : List Value} (same : machine.stack = .boolean false :: rest) :
      Executes machine glyph (.jumpIf offset) ({ machine with stack := rest } : Machine).advance
        .none
  | call {label : String} {body : Sequence}
      (found : machine.program.labels.get? label = some body) :
      Executes machine glyph (.call label)
        { machine with
          active := some body.instructions, routine := .label label, index := 0 } .none
  | halt :
      Executes machine glyph .halt ({ machine with halted := true } : Machine).finish .none

theorem executes_of_execute {machine next : Machine} {glyph : Except TapeError Char}
    {instruction : Instruction} {effect : Effect}
    (executed : machine.execute glyph instruction = .ok (next, effect)) :
    machine.Executes glyph instruction next effect := by
  cases instruction with
  | push value =>
      obtain ⟨rfl, rfl⟩ := Prod.mk.inj (Except.ok.inj executed)
      exact .push
  | duplicate =>
      simp only [execute] at executed
      split at executed
      next => contradiction
      next same =>
        obtain ⟨rfl, rfl⟩ := Prod.mk.inj (Except.ok.inj executed)
        exact .duplicate same
  | compare comparison =>
      simp only [execute] at executed
      split at executed
      next => contradiction
      next enough =>
        split at executed
        next evaluated =>
          obtain ⟨rfl, rfl⟩ := Prod.mk.inj (Except.ok.inj executed)
          exact .compare (Nat.le_of_not_lt enough) evaluated
        all_goals contradiction
  | read =>
      simp only [execute] at executed
      split at executed
      next =>
        obtain ⟨rfl, rfl⟩ := Prod.mk.inj (Except.ok.inj executed)
        exact .read rfl
      next => contradiction
  | write =>
      simp only [execute] at executed
      split at executed
      next => contradiction
      next same =>
        obtain ⟨rfl, rfl⟩ := Prod.mk.inj (Except.ok.inj executed)
        exact .write same
      next => contradiction
  | move direction =>
      simp only [execute] at executed
      split at executed
      next => contradiction
      next distance rest same =>
        obtain ⟨rfl, rfl⟩ := Prod.mk.inj (Except.ok.inj executed)
        exact .move same
      next => contradiction
  | jump offset =>
      simp only [execute] at executed
      split at executed
      next relocated =>
        obtain ⟨target, found, rfl⟩ := relocate_ok relocated
        obtain ⟨rfl, rfl⟩ := Prod.mk.inj (Except.ok.inj executed)
        exact .jump found
      next => contradiction
  | jumpIf offset =>
      simp only [execute] at executed
      split at executed
      next => contradiction
      next same =>
        split at executed
        next relocated =>
          obtain ⟨target, found, rfl⟩ := relocate_ok relocated
          obtain ⟨rfl, rfl⟩ := Prod.mk.inj (Except.ok.inj executed)
          exact .jumpIf same found
        next => contradiction
      next same =>
        obtain ⟨rfl, rfl⟩ := Prod.mk.inj (Except.ok.inj executed)
        exact .pass same
      next => contradiction
  | call label =>
      simp only [execute] at executed
      split at executed
      next found =>
        obtain ⟨rfl, rfl⟩ := Prod.mk.inj (Except.ok.inj executed)
        exact .call found
      next => contradiction
  | halt =>
      obtain ⟨rfl, rfl⟩ := Prod.mk.inj (Except.ok.inj executed)
      exact .halt

theorem proceeds_of_execute {machine next : Machine} {glyph : Except TapeError Char}
    {instruction : Instruction} {effect : Effect}
    (executed : machine.execute glyph instruction = .ok (next, effect)) :
    machine.Proceeds instruction next := by
  cases executes_of_execute executed with
  | push => exact .go rfl rfl rfl (fun _ => .inl) rfl (.inl rfl) rfl
  | duplicate same | write same | pass same =>
      refine .go rfl rfl rfl (fun _ => .inl) ?_ (.inl rfl) rfl
      simp [same, advance, Instruction.taken, Instruction.given]
  | compare enough =>
      refine .go rfl rfl rfl (fun _ => .inl) ?_ (.inl rfl) rfl
      simp only [advance, Instruction.taken, Instruction.given, List.length_cons, List.length_drop]
      omega
  | read => exact .go rfl rfl rfl (fun _ => .inl) rfl (.inl rfl) rfl
  | @move direction distance rest same =>
      obtain ⟨pending, begun, positive⟩ :=
        beginMove_fst ({ machine with stack := rest } : Machine).advance distance direction
      rw [begun]
      refine .go rfl rfl rfl positive ?_ (.inl rfl) rfl
      simp [same, advance, Instruction.taken, Instruction.given]
  | jump found => exact .go rfl rfl rfl (fun _ => .inl) rfl (.inr found) rfl
  | jumpIf same found =>
      refine .go rfl rfl rfl (fun _ => .inl) ?_ (.inr found) rfl
      simp [same, Instruction.taken, Instruction.given]
  | call found => exact .call rfl found rfl
  | halt => exact .halt rfl rfl

/-- What a step can make of a machine, and the effect that it has. -/
inductive Turns (machine : Machine) (glyph : Except TapeError Char) (next : Machine)
    (effect : Effect) : Prop where
  | walk {direction : Direction} {remaining : Nat}
      (walking : machine.walk = some ⟨direction, remaining⟩)
      (same : next = ({ machine with
        walk := if 1 < remaining then some ⟨direction, remaining - 1⟩ else none }
          : Machine).countStep.settle)
      (moves : effect = .walk direction)
  | rest (still : machine.walk = none) (ended : machine.active = none) (same : next = machine)
      (nothing : effect = .none)
  | exhaust {instructions : Array Instruction} (still : machine.walk = none)
      (active : machine.active = some instructions) (beyond : instructions[machine.index]? = none)
      (same : next = machine.finish) (nothing : effect = .none)
  | execute {instructions : Array Instruction} {instruction : Instruction} {executed : Machine}
      (still : machine.walk = none) (active : machine.active = some instructions)
      (found : instructions[machine.index]? = some instruction)
      (outcome : machine.countStep.execute glyph instruction = .ok (executed, effect))
      (same : next = executed.settle)

theorem turns_of_plan {machine next : Machine} {glyph : Except TapeError Char} {effect : Effect}
    (planned : machine.plan glyph = .ok (next, effect)) : machine.Turns glyph next effect := by
  unfold plan at planned
  split at planned
  next direction remaining walking =>
    obtain ⟨rfl, rfl⟩ := Prod.mk.inj (Except.ok.inj planned)
    exact .walk walking rfl rfl
  next still =>
    split at planned
    next ended =>
      obtain ⟨rfl, rfl⟩ := Prod.mk.inj (Except.ok.inj planned)
      exact .rest still ended rfl rfl
    next instructions active =>
      split at planned
      next beyond =>
        obtain ⟨rfl, rfl⟩ := Prod.mk.inj (Except.ok.inj planned)
        exact .exhaust still active beyond rfl rfl
      next instruction found =>
        split at planned
        next executed _ outcome =>
          obtain ⟨rfl, rfl⟩ := Prod.mk.inj (Except.ok.inj planned)
          exact .execute still active found outcome rfl
        next => contradiction

/-- A step without a fault is a planned one whose effect the cursor allows. -/
theorem step_ok {machine next : Machine} {tape behind : Tape} {cursor : CursorId}
    (stepped : machine.step tape cursor = (.ok next, behind)) :
    ∃ effect, machine.Turns (tape.read cursor) next effect ∧
      effect.refusal? tape cursor = none ∧ behind = effect.perform tape cursor := by
  unfold step at stepped
  split at stepped
  next => simp at stepped
  next planned =>
    split at stepped
    next => simp at stepped
    next accepted =>
      obtain ⟨same, rfl⟩ := Prod.mk.inj stepped
      obtain rfl := Except.ok.inj same
      exact ⟨_, turns_of_plan planned, accepted, rfl⟩

/-- A step that faults leaves the tape as it is. -/
theorem tape_of_fault {machine : Machine} {tape behind : Tape} {cursor : CursorId} {fault : Fault}
    (stepped : machine.step tape cursor = (.error fault, behind)) : behind = tape := by
  unfold step at stepped
  split at stepped
  next => exact (Prod.mk.inj stepped).2.symm
  next =>
    split at stepped
    next => exact (Prod.mk.inj stepped).2.symm
    next => simp at stepped

end TapeMachine.Machine
