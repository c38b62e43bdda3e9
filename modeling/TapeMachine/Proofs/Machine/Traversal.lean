import TapeMachine.Proofs.Code.Segment
import TapeMachine.Proofs.Machine.Execution
import TapeMachine.Proofs.Syntax.Meaning

/-!
Contract: what the pieces of a sequence do to a machine that gets to them.

Owns: the places where a machine stands between two instructions, and where it stands behind an
instruction, behind a whole move and behind the code of an expression.

A machine that has got to the end of its sequence settles at once and forgets its place. Therefore
a place is described by the machine before it settles, and it is the settled machine that steps.
-/

namespace TapeMachine

/-- A machine is in front of an instruction, or at the end of the sequence, and no move is in
progress. -/
structure Machine.Stands (machine : Machine) (program : Executable) (code : Array Instruction)
    (index : Nat) (stack : List Value) : Prop where
  program : machine.program = program
  active : machine.active = some code
  index : machine.index = index
  stack : machine.stack = stack
  still : machine.walk = none
  running : machine.halted = false

/-- Where a machine is in a sequence, what is on its stack, and its tape. -/
structure Spot where
  index : Nat
  stack : List Value
  tape : Tape

/-- Machines get from one place in a sequence to another in a number of steps. -/
def Traverses (program : Executable) (cursor : CursorId) (code : Array Instruction) (count : Nat)
    (first second : Spot) : Prop :=
  ∀ machine : Machine, machine.Stands program code first.index first.stack →
    ∃ next : Machine, next.Stands program code second.index second.stack ∧
      machine.settle.Advances cursor first.tape count next.settle second.tape

section Places

variable {program : Executable} {cursor : CursorId} {code : Array Instruction}

theorem Traverses.refl (spot : Spot) : Traverses program cursor code 0 spot spot :=
  fun machine stands => ⟨machine, stands, .refl⟩

theorem Traverses.trans {first middle last : Spot} {count others : Nat}
    (begins : Traverses program cursor code count first middle)
    (ends : Traverses program cursor code others middle last) :
    Traverses program cursor code (count + others) first last := by
  intro machine stands
  obtain ⟨next, nextStands, advances⟩ := begins machine stands
  obtain ⟨final, finalStands, further⟩ := ends next nextStands
  exact ⟨final, finalStands, advances.trans further⟩

/-! ## One instruction -/

namespace Machine

theorem Stands.countStep {machine : Machine} {index : Nat} {stack : List Value}
    (stands : machine.Stands program code index stack) :
    machine.countStep.Stands program code index stack :=
  ⟨stands.program, stands.active, stands.index, stands.stack, stands.still, stands.running⟩

/-- In front of an instruction a machine has not settled yet. -/
theorem Stands.settle_eq {machine : Machine} {index : Nat} {stack : List Value}
    (stands : machine.Stands program code index stack) {instruction : Instruction}
    (found : code[index]? = some instruction) : machine.settle = machine := by
  obtain ⟨inside, -⟩ := Array.getElem?_eq_some_iff.mp found
  simp [settle, stands.still, stands.active, stands.index, Nat.not_le_of_lt inside]

theorem Stands.advances {machine : Machine} {index : Nat} {stack : List Value}
    (stands : machine.Stands program code index stack) {instruction : Instruction}
    (found : code[index]? = some instruction) {tape : Tape} {next : Machine} {effect : Effect}
    (executed : machine.countStep.execute (tape.read cursor) instruction = .ok (next, effect))
    (accepted : effect.refusal? tape cursor = none) :
    machine.settle.Advances cursor tape 1 next.settle (effect.perform tape cursor) := by
  have place := stands.index
  rw [stands.settle_eq found]
  refine .step ?_ ?_ .refl
  · simp [hasMoreWork, stands.active]
  · simp [step, plan, stands.still, stands.active, place, found, executed, accepted]

end Machine

theorem traverses_of_execute {index target : Nat} {stack rest : List Value} {tape : Tape}
    {instruction : Instruction} (effect : Effect) (found : code[index]? = some instruction)
    (accepted : effect.refusal? tape cursor = none)
    (executed : ∀ machine : Machine, machine.Stands program code index stack →
      ∃ next : Machine, machine.execute (tape.read cursor) instruction = .ok (next, effect) ∧
        next.Stands program code target rest) :
    Traverses program cursor code 1 ⟨index, stack, tape⟩
      ⟨target, rest, effect.perform tape cursor⟩ := by
  intro machine stands
  obtain ⟨next, result, nextStands⟩ := executed _ stands.countStep
  exact ⟨next, nextStands, stands.advances found result accepted⟩

section Instructions

variable {index : Nat} {stack : List Value} {tape : Tape}

theorem traverses_push {value : Value} (found : code[index]? = some (.push value)) :
    Traverses program cursor code 1 ⟨index, stack, tape⟩ ⟨index + 1, value :: stack, tape⟩ := by
  apply traverses_of_execute .none found rfl
  intro machine stands
  rcases stands with ⟨rfl, active, rfl, rfl, still, running⟩
  exact ⟨_, rfl, rfl, active, rfl, rfl, still, running⟩

theorem traverses_duplicate {top : Value} (found : code[index]? = some .duplicate) :
    Traverses program cursor code 1 ⟨index, top :: stack, tape⟩
      ⟨index + 1, top :: top :: stack, tape⟩ := by
  apply traverses_of_execute .none found rfl
  intro machine stands
  rcases stands with ⟨rfl, active, rfl, top, still, running⟩
  simp only [Machine.execute, top]
  exact ⟨_, rfl, rfl, active, rfl, rfl, still, running⟩

theorem traverses_negate {truth : Bool} (found : code[index]? = some (.compare .negation)) :
    Traverses program cursor code 1 ⟨index, .boolean truth :: stack, tape⟩
      ⟨index + 1, .boolean (!truth) :: stack, tape⟩ := by
  apply traverses_of_execute .none found rfl
  intro machine stands
  rcases stands with ⟨rfl, active, rfl, top, still, running⟩
  exact ⟨_, Machine.execute_negation top, rfl, active, rfl, rfl, still, running⟩

theorem traverses_binary {op : BinaryOp} {left right : Value} {truth : Bool}
    (found : code[index]? = some (.compare (.binary op))) (applied : op.apply left right = .ok truth) :
    Traverses program cursor code 1 ⟨index, right :: left :: stack, tape⟩
      ⟨index + 1, .boolean truth :: stack, tape⟩ := by
  apply traverses_of_execute .none found rfl
  intro machine stands
  rcases stands with ⟨rfl, active, rfl, top, still, running⟩
  exact ⟨_, Machine.execute_binary top applied, rfl, active, rfl, rfl, still, running⟩

theorem traverses_read {glyph : Char} (found : code[index]? = some .read)
    (reads : tape.read cursor = .ok glyph) :
    Traverses program cursor code 1 ⟨index, stack, tape⟩
      ⟨index + 1, .character glyph :: stack, tape⟩ := by
  apply traverses_of_execute .none found rfl
  intro machine stands
  rcases stands with ⟨rfl, active, rfl, rfl, still, running⟩
  simp only [Machine.execute, reads]
  exact ⟨_, rfl, rfl, active, rfl, rfl, still, running⟩

theorem traverses_write {glyph : Char} (found : code[index]? = some .write)
    (ready : tape.Ready cursor) :
    Traverses program cursor code 1 ⟨index, .character glyph :: stack, tape⟩
      ⟨index + 1, stack, tape.put cursor glyph⟩ := by
  refine traverses_of_execute (.write glyph) found ready.refusal?_eq_none ?_
  intro machine stands
  rcases stands with ⟨rfl, active, rfl, top, still, running⟩
  simp only [Machine.execute, top]
  exact ⟨_, rfl, rfl, active, rfl, rfl, still, running⟩

theorem traverses_jump {offset : Int} {target : Nat} (found : code[index]? = some (.jump offset))
    (leads : jumpTarget index offset = some target) :
    Traverses program cursor code 1 ⟨index, stack, tape⟩ ⟨target, stack, tape⟩ := by
  apply traverses_of_execute .none found rfl
  intro machine stands
  rcases stands with ⟨rfl, active, rfl, rfl, still, running⟩
  simp only [Machine.execute, Machine.relocate, leads]
  exact ⟨_, rfl, rfl, active, rfl, rfl, still, running⟩

/-- A conditional jump forward pops the truth value that it depends on. -/
theorem traverses_jumpIf {truth : Bool} {count : Nat}
    (found : code[index]? = some (.jumpIf (count : Int))) :
    Traverses program cursor code 1 ⟨index, .boolean truth :: stack, tape⟩
      ⟨index + 1 + (if truth then count else 0), stack, tape⟩ := by
  apply traverses_of_execute .none found rfl
  intro machine stands
  rcases stands with ⟨rfl, active, rfl, top, still, running⟩
  cases truth with
  | true =>
      simp only [Machine.execute, top, Machine.relocate, jumpTarget_forward]
      exact ⟨_, rfl, rfl, active, rfl, rfl, still, running⟩
  | false =>
      simp only [Machine.execute, top]
      exact ⟨_, rfl, rfl, active, rfl, rfl, still, running⟩

/-! ## One move -/

/-- The machine with a move in progress, if any cells are left of it. -/
def Machine.walking (machine : Machine) (direction : Direction) (remaining : Nat) : Machine :=
  { machine with walk := if 0 < remaining then some ⟨direction, remaining⟩ else none }

/-- A move in progress takes a step for each cell, with nothing else changed between the steps. -/
theorem Machine.walking_advances (machine : Machine) (ready : tape.Ready cursor)
    (direction : Direction) {count remaining : Nat} (within : count ≤ remaining) :
    (machine.walking direction remaining).settle.Advances cursor tape count
      (({ machine with steps := machine.steps + count } : Machine).walking direction
        (remaining - count)).settle
      (tape.walk cursor count direction) := by
  induction count generalizing machine tape remaining with
  | zero =>
      rw [Tape.walk_zero _ ready.onTape]
      exact .refl
  | succ count inductionHypothesis =>
      obtain ⟨left, rfl⟩ : ∃ left, remaining = left + 1 := ⟨remaining - 1, by omega⟩
      have others := inductionHypothesis machine.countStep (ready.walk 1 direction)
        (Nat.le_of_succ_le_succ within)
      rw [Tape.walk_walk _ (Tape.registered_of_isAlive ready.alive), Nat.add_comm 1] at others
      have counted : machine.countStep.steps + count = machine.steps + (count + 1) := by
        simp only [countStep]
        omega
      rw [counted] at others
      rw [Nat.add_sub_add_right]
      have busy : (machine.walking direction (left + 1)).settle =
          machine.walking direction (left + 1) := by
        simp [walking, settle]
      rw [busy]
      have planned (glyph : Except TapeError Char) :
          (machine.walking direction (left + 1)).plan glyph =
            .ok ((machine.countStep.walking direction left).settle, .walk direction) := by
        simp [plan, walking]
        rfl
      refine .step ?_ ?_ others
      · simp [walking, hasMoreWork]
      · simp [step, planned, Effect.refusal?, Effect.perform, ready.refusal?_eq_none]

/-- When a move in progress has ended, the machine stands where it would without it. -/
theorem Machine.Stands.walks {machine : Machine} (stands : machine.Stands program code index stack)
    (ready : tape.Ready cursor) (direction : Direction) (remaining : Nat) :
    ∃ next : Machine, next.Stands program code index stack ∧
      (machine.walking direction remaining).settle.Advances cursor tape remaining next.settle
        (tape.walk cursor remaining direction) := by
  have advances := machine.walking_advances ready direction (Nat.le_refl remaining)
  rw [Nat.sub_self] at advances
  refine ⟨_, ?_, advances⟩
  exact ⟨stands.program, stands.active, stands.index, stands.stack, rfl, stands.running⟩

/-- A move by some cells walks the first of them at once. -/
theorem Machine.execute_move {machine : Machine} {glyph : Except TapeError Char}
    {direction : Direction} {distance : Int} (same : machine.stack = .number distance :: stack)
    {remaining : Nat} (size : distance.natAbs = remaining + 1) :
    machine.execute glyph (.move direction) =
      .ok (({ machine with stack := stack }.advance).walking (direction.toward distance) remaining,
        .walk (direction.toward distance)) := by
  have some : distance ≠ 0 := by omega
  simp [execute, same, beginMove, some, size, walking, Direction.toward]

/-- A move takes at least one step and goes as far as the number on the stack says. -/
theorem traverses_move {direction : Direction} {distance : Int}
    (found : code[index]? = some (.move direction)) (ready : tape.Ready cursor) :
    ∃ count, 0 < count ∧
      Traverses program cursor code count ⟨index, .number distance :: stack, tape⟩
        ⟨index + 1, stack, tape.walk cursor distance.natAbs (direction.toward distance)⟩ := by
  cases size : distance.natAbs with
  | zero =>
      obtain rfl := Int.natAbs_eq_zero.mp size
      refine ⟨1, Nat.one_pos, ?_⟩
      rw [Tape.walk_zero _ ready.onTape]
      apply traverses_of_execute .none found rfl
      intro machine stands
      rcases stands with ⟨rfl, active, rfl, top, still, running⟩
      simp only [Machine.execute, top, Machine.beginMove, ↓reduceIte]
      exact ⟨_, rfl, rfl, active, rfl, rfl, still, running⟩
  | succ remaining =>
      refine ⟨1 + remaining, Nat.lt_add_right _ Nat.one_pos, ?_⟩
      rw [Nat.add_comm remaining]
      intro machine stands
      have begins := stands.advances found (Machine.execute_move stands.countStep.stack size)
        ready.refusal?_eq_none
      have begun : ({ machine.countStep with stack := stack }.advance).Stands program code
          (index + 1) stack :=
        ⟨stands.program, stands.active, congrArg (· + 1) stands.index, rfl, stands.still,
          stands.running⟩
      obtain ⟨next, nextStands, walks⟩ := begun.walks (ready.walk 1 _) _ remaining
      rw [Tape.walk_walk _ (Tape.registered_of_isAlive ready.alive)] at walks
      exact ⟨next, nextStands, begins.trans walks⟩

end Instructions

/-! ## Pieces of code -/

/-- The code of an expression leaves its value on the stack. -/
theorem Expression.traverses {expression : Expression} {index : Nat} {stack : List Value}
    {tape : Tape} {glyph : Char} {value : Value}
    (here : Contains code index expression.code.instructions)
    (reads : tape.read cursor = .ok glyph) (evaluates : expression.evaluate glyph = .ok value) :
    Traverses program cursor code expression.code.length ⟨index, stack, tape⟩
      ⟨index + expression.code.length, value :: stack, tape⟩ := by
  induction expression generalizing index stack value with
  | binary op left right line leftHypothesis rightHypothesis =>
      obtain ⟨first, second, truth, firstValue, secondValue, applied, rfl⟩ :=
        evaluate_binary.mp evaluates
      simp only [Expression.code, Code.instructions_append] at here
      have last := here.right.head
      have rightHere := here.left.right
      simp only [List.length_append, Code.length_instructions, ← Nat.add_assoc] at last rightHere
      simp only [Expression.code, List.length_append, List.length_cons, List.length_nil,
        ← Nat.add_assoc, Nat.zero_add]
      exact ((leftHypothesis here.left.left firstValue).trans
        (rightHypothesis rightHere secondValue)).trans (traverses_binary last applied)
  | negation operand line inductionHypothesis =>
      obtain ⟨truth, operandValue, rfl⟩ := evaluate_negation.mp evaluates
      simp only [Expression.code, Code.instructions_append] at here
      have last := here.right.head
      rw [Code.length_instructions] at last
      simp only [Expression.code, List.length_append, List.length_cons, List.length_nil,
        ← Nat.add_assoc, Nat.zero_add]
      exact (inductionHypothesis here.left operandValue).trans (traverses_negate last)
  | nested inner line inductionHypothesis => exact inductionHypothesis here evaluates
  | read line =>
      obtain rfl := Except.ok.inj evaluates
      exact traverses_read here.head reads
  | literal literal line =>
      obtain rfl := Except.ok.inj evaluates
      exact traverses_push here.head

/-- A negation with a conditional jump behind it skips instructions if a condition does not hold. -/
theorem traverses_branch {index count : Nat} {stack : List Value} {tape : Tape} (truth : Bool)
    {rest : List Instruction}
    (here : Contains code index (.compare .negation :: .jumpIf (count : Int) :: rest)) :
    Traverses program cursor code 2 ⟨index, .boolean truth :: stack, tape⟩
      ⟨index + 2 + (if truth then 0 else count), stack, tape⟩ := by
  have both : Traverses program cursor code (1 + 1) ⟨index, .boolean truth :: stack, tape⟩ _ :=
    (traverses_negate here.head).trans (traverses_jumpIf here.tail.head)
  cases truth with
  | true => exact both
  | false => exact both

theorem traverses_condition {condition : Expression} {index count : Nat} {stack : List Value}
    {tape : Tape} {truth : Bool} {rest : List Instruction}
    (here : Contains code index (condition.code.instructions ++
      .compare .negation :: .jumpIf (count : Int) :: rest))
    (yields : condition.Yields tape cursor (.boolean truth)) :
    Traverses program cursor code (condition.code.length + 2) ⟨index, stack, tape⟩
      ⟨index + condition.code.length + 2 + (if truth then 0 else count), stack, tape⟩ := by
  rcases yields with ⟨glyph, reads, evaluates⟩
  have branch := here.right
  rw [Code.length_instructions] at branch
  exact (Expression.traverses here.left reads evaluates).trans (traverses_branch truth branch)

end Places

end TapeMachine
