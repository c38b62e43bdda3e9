import Mathlib.Logic.Relation
import TapeMachine.Proofs.Operator
import TapeMachine.Proofs.Syntax.Routine
import TapeMachine.Proofs.Tape.Growth

/-!
Contract: what programs mean, without instructions.

Owns: the value of an expression, the steps of a structural run, the runs made of them, and that a
run of a checked program goes on until nothing is pending.

A structural run keeps the statements that are still to be run. A branching statement puts the
statements of a branch in front of them, a loop puts its body and itself there, and a jump replaces
all of them by the body of the label.
-/

namespace TapeMachine

/-! ## Expressions -/

/-- The value of an expression where the cursor reads some character, or an operand that has to be
a truth value and is none. -/
def Expression.evaluate (glyph : Char) : Expression → Except Value Value
  | .binary op left right _ =>
      match left.evaluate glyph, right.evaluate glyph with
      | .ok first, .ok second => (op.apply first second).map .boolean
      | .ok _, .error operand => .error operand
      | .error operand, _ => .error operand
  | .negation operand _ =>
      match operand.evaluate glyph with
      | .ok value => value.truth.map fun truth => .boolean !truth
      | .error operand => .error operand
  | .nested inner _ => inner.evaluate glyph
  | .read _ => .ok (.character glyph)
  | .literal value _ => .ok value

theorem Expression.evaluate_binary {glyph : Char} {op : BinaryOp} {left right : Expression}
    {line : Nat} {value : Value} :
    (Expression.binary op left right line).evaluate glyph = .ok value ↔
      ∃ first second truth, left.evaluate glyph = .ok first ∧ right.evaluate glyph = .ok second ∧
        op.apply first second = .ok truth ∧ value = .boolean truth := by
  simp only [evaluate]
  cases left.evaluate glyph with
  | error operand => simp
  | ok first =>
      cases right.evaluate glyph with
      | error operand => simp
      | ok second =>
          cases applied : op.apply first second with
          | error operand => simp [applied, Except.map]
          | ok truth => cases truth <;> simp [applied, Except.map, eq_comm]

theorem Expression.evaluate_negation {glyph : Char} {operand : Expression} {line : Nat}
    {value : Value} :
    (Expression.negation operand line).evaluate glyph = .ok value ↔
      ∃ truth, operand.evaluate glyph = .ok (.boolean truth) ∧ value = .boolean !truth := by
  simp only [evaluate]
  cases operand.evaluate glyph with
  | error found => simp
  | ok found =>
      cases found with
      | number number => simp [Value.truth, Value.boolean?, Except.map]
      | character glyph => simp [Value.truth, Value.boolean?, Except.map]
      | boolean truth => simp [Value.truth, Value.boolean?, Except.map, eq_comm]

/-- A typed expression has a value of its type, whatever character the cursor reads. -/
theorem HasType.evaluate {expression : Expression} {type : ValueType}
    (typed : HasType expression type) (glyph : Char) :
    ∃ value, expression.evaluate glyph = .ok value ∧ value.type = type := by
  induction typed with
  | @comparison op left right operands line plain leftType rightType leftHypothesis
      rightHypothesis =>
      rcases leftHypothesis with ⟨first, firstValue, -⟩
      rcases rightHypothesis with ⟨second, secondValue, -⟩
      have operandTypes : op.isLogical = true → first.type = .boolean ∧ second.type = .boolean := by
        simp [plain]
      obtain ⟨truth, applied⟩ := BinaryOp.apply_of_types operandTypes
      exact ⟨.boolean truth, Expression.evaluate_binary.mpr
        ⟨first, second, truth, firstValue, secondValue, applied, rfl⟩, rfl⟩
  | logical logical leftType rightType leftHypothesis rightHypothesis =>
      rcases leftHypothesis with ⟨first, firstValue, firstType⟩
      rcases rightHypothesis with ⟨second, secondValue, secondType⟩
      obtain ⟨truth, applied⟩ := BinaryOp.apply_of_types fun _ => ⟨firstType, secondType⟩
      exact ⟨.boolean truth, Expression.evaluate_binary.mpr
        ⟨first, second, truth, firstValue, secondValue, applied, rfl⟩, rfl⟩
  | negation operandType inductionHypothesis =>
      rcases inductionHypothesis with ⟨value, evaluated, type⟩
      obtain ⟨truth, rfl⟩ := Value.eq_boolean type
      exact ⟨.boolean !truth, Expression.evaluate_negation.mpr ⟨truth, evaluated, rfl⟩, rfl⟩
  | nested innerType inductionHypothesis => exact inductionHypothesis
  | read => exact ⟨_, rfl, rfl⟩
  | literal => exact ⟨_, rfl, rfl⟩

def Expression.Yields (expression : Expression) (tape : Tape) (cursor : CursorId)
    (value : Value) : Prop :=
  ∃ glyph, tape.read cursor = .ok glyph ∧ expression.evaluate glyph = .ok value

theorem HasType.yields {expression : Expression} {type : ValueType}
    (typed : HasType expression type) {tape : Tape} {cursor : CursorId}
    (ready : tape.Ready cursor) :
    ∃ value, expression.Yields tape cursor value ∧ value.type = type := by
  rcases ready.read with ⟨glyph, reads⟩
  obtain ⟨value, evaluates, valueType⟩ := typed.evaluate glyph
  exact ⟨value, ⟨glyph, reads, evaluates⟩, valueType⟩

/-! ## Steps -/

/-- Where a move by a number of cells goes: a negative number turns the direction round. -/
def Direction.toward (distance : Int) (direction : Direction) : Direction :=
  if distance < 0 then direction.opposite else direction

/-- What is left of a structural run: the statements that are still to be run, the tape, and
whether the run was halted. -/
structure Pending where
  statements : List Statement
  tape : Tape
  halted : Bool

/-- One step of a structural run. It ends when no statement is left. -/
inductive Program.Steps (program : Program) (cursor : CursorId) : Pending → Pending → Prop where
  | empty {tape : Tape} {halted : Bool} {rest : List Statement} {line : Nat} :
      Steps program cursor ⟨.empty line :: rest, tape, halted⟩ ⟨rest, tape, halted⟩
  | move {tape behind : Tape} {halted : Bool} {rest : List Statement} {direction : Direction}
      {expression : Expression} {line : Nat} {distance : Int}
      (yields : expression.Yields tape cursor (.number distance))
      (moves : tape.move cursor distance.natAbs (direction.toward distance) = .ok behind) :
      Steps program cursor ⟨.move direction expression line :: rest, tape, halted⟩
        ⟨rest, behind, halted⟩
  | write {tape behind : Tape} {halted : Bool} {rest : List Statement} {expression : Expression}
      {line : Nat} {glyph : Char} (yields : expression.Yields tape cursor (.character glyph))
      (writes : tape.write cursor glyph = .ok behind) :
      Steps program cursor ⟨.write expression line :: rest, tape, halted⟩ ⟨rest, behind, halted⟩
  | goto {tape : Tape} {halted : Bool} {rest : List Statement} {label : String} {line : Nat}
      {body : Block} (found : program.body? label = some body) :
      Steps program cursor ⟨.goto label line :: rest, tape, halted⟩
        ⟨body.statements, tape, halted⟩
  | ifThen {tape : Tape} {halted : Bool} {rest : List Statement} {condition : Expression}
      {body : Block} {line : Nat} (holds : condition.Yields tape cursor (.boolean true)) :
      Steps program cursor ⟨.ifThen condition body line :: rest, tape, halted⟩
        ⟨body.statements ++ rest, tape, halted⟩
  | ifThenSkip {tape : Tape} {halted : Bool} {rest : List Statement} {condition : Expression}
      {body : Block} {line : Nat} (fails : condition.Yields tape cursor (.boolean false)) :
      Steps program cursor ⟨.ifThen condition body line :: rest, tape, halted⟩
        ⟨rest, tape, halted⟩
  | ifElseThen {tape : Tape} {halted : Bool} {rest : List Statement} {condition : Expression}
      {thenBody elseBody : Block} {line : Nat}
      (holds : condition.Yields tape cursor (.boolean true)) :
      Steps program cursor ⟨.ifElse condition thenBody elseBody line :: rest, tape, halted⟩
        ⟨thenBody.statements ++ rest, tape, halted⟩
  | ifElse {tape : Tape} {halted : Bool} {rest : List Statement} {condition : Expression}
      {thenBody elseBody : Block} {line : Nat}
      (fails : condition.Yields tape cursor (.boolean false)) :
      Steps program cursor ⟨.ifElse condition thenBody elseBody line :: rest, tape, halted⟩
        ⟨elseBody.statements ++ rest, tape, halted⟩
  | whileLoop {tape : Tape} {halted : Bool} {rest : List Statement} {condition : Expression}
      {body : Block} {line : Nat} (holds : condition.Yields tape cursor (.boolean true)) :
      Steps program cursor ⟨.whileLoop condition body line :: rest, tape, halted⟩
        ⟨body.statements ++ .whileLoop condition body line :: rest, tape, halted⟩
  | whileExit {tape : Tape} {halted : Bool} {rest : List Statement} {condition : Expression}
      {body : Block} {line : Nat} (fails : condition.Yields tape cursor (.boolean false)) :
      Steps program cursor ⟨.whileLoop condition body line :: rest, tape, halted⟩
        ⟨rest, tape, halted⟩
  | halt {tape : Tape} {halted : Bool} {rest : List Statement} {line : Nat} :
      Steps program cursor ⟨.halt line :: rest, tape, halted⟩ ⟨[], tape, true⟩

abbrev Program.Reaches (program : Program) (cursor : CursorId) : Pending → Pending → Prop :=
  Relation.ReflTransGen (program.Steps cursor)

/-! ## Progress -/

/-- A statement has a meaning within a program: it is well typed and its jumps lead to bodies. -/
structure Program.Admits (program : Program) (entry : Statement) : Prop where
  typed : entry.WellTyped
  resolved : ∀ name ∈ entry.gotos, (program.body? name).isSome = true

/-- Every pending statement has a meaning, and the cursor can be used. -/
structure Pending.Valid (program : Program) (cursor : CursorId) (pending : Pending) : Prop where
  admitted : ∀ entry ∈ pending.statements, program.Admits entry
  ready : pending.tape.Ready cursor

namespace Program

variable {program : Program} {cursor : CursorId}

theorem admits_of_block {body : Block} (typed : body.WellTyped)
    (resolved : ∀ name ∈ body.gotos, (program.body? name).isSome = true) :
    ∀ entry ∈ body.statements, program.Admits entry := by
  cases body with
  | mk statements line =>
      intro entry member
      exact ⟨Statement.allWellTyped_iff.mp typed entry member,
        fun name jumps => resolved name (Statement.mem_gotosOf.mpr ⟨entry, member, jumps⟩)⟩

theorem admits_of_mem_statements (typed : program.WellTyped) (resolved : program.Resolved) :
    ∀ entry ∈ program.statements, program.Admits entry :=
  fun _ member => ⟨typed _ (mem_statements.mp member),
    fun _ jumps => resolved.body? (mem_statements.mp member) jumps⟩

theorem admits_of_body? (typed : program.WellTyped) (resolved : program.Resolved) {name : String}
    {body : Block} (found : program.body? name = some body) :
    ∀ entry ∈ body.statements, program.Admits entry := by
  obtain ⟨definition, member, rfl⟩ := label_of_body? found
  exact admits_of_block (typed _ member) fun _ jumps => resolved.body? member jumps

namespace Admits

variable {condition : Expression} {body thenBody elseBody : Block} {line : Nat}

theorem ifThen (admits : program.Admits (.ifThen condition body line)) :
    ∀ entry ∈ body.statements, program.Admits entry :=
  admits_of_block admits.typed.2 admits.resolved

theorem ifElseThen (admits : program.Admits (.ifElse condition thenBody elseBody line)) :
    ∀ entry ∈ thenBody.statements, program.Admits entry :=
  admits_of_block admits.typed.2.1 fun name jumps =>
    admits.resolved name (List.mem_append_left _ jumps)

theorem ifElse (admits : program.Admits (.ifElse condition thenBody elseBody line)) :
    ∀ entry ∈ elseBody.statements, program.Admits entry :=
  admits_of_block admits.typed.2.2 fun name jumps =>
    admits.resolved name (List.mem_append_right _ jumps)

theorem whileLoop (admits : program.Admits (.whileLoop condition body line)) :
    ∀ entry ∈ body.statements, program.Admits entry :=
  admits_of_block admits.typed.2 admits.resolved

end Admits

/-- A step leads from pending statements with a meaning to such statements and keeps the cursor
usable. -/
theorem Steps.valid {pending next : Pending} (step : program.Steps cursor pending next)
    (typed : program.WellTyped) (resolved : program.Resolved)
    (valid : pending.Valid program cursor) : next.Valid program cursor := by
  rcases valid with ⟨admitted, ready⟩
  cases step with
  | empty => exact ⟨(List.forall_mem_cons.mp admitted).2, ready⟩
  | move yields moves =>
      rw [ready.move_eq] at moves
      obtain rfl := Except.ok.inj moves
      exact ⟨(List.forall_mem_cons.mp admitted).2, ready.walk _ _⟩
  | write yields writes =>
      rw [ready.write_eq] at writes
      obtain rfl := Except.ok.inj writes
      exact ⟨(List.forall_mem_cons.mp admitted).2, ready.put _⟩
  | goto found => exact ⟨admits_of_body? typed resolved found, ready⟩
  | ifThen =>
      obtain ⟨first, others⟩ := List.forall_mem_cons.mp admitted
      exact ⟨List.forall_mem_append.mpr ⟨first.ifThen, others⟩, ready⟩
  | ifThenSkip => exact ⟨(List.forall_mem_cons.mp admitted).2, ready⟩
  | ifElseThen =>
      obtain ⟨first, others⟩ := List.forall_mem_cons.mp admitted
      exact ⟨List.forall_mem_append.mpr ⟨first.ifElseThen, others⟩, ready⟩
  | ifElse =>
      obtain ⟨first, others⟩ := List.forall_mem_cons.mp admitted
      exact ⟨List.forall_mem_append.mpr ⟨first.ifElse, others⟩, ready⟩
  | whileLoop =>
      obtain ⟨first, -⟩ := List.forall_mem_cons.mp admitted
      exact ⟨List.forall_mem_append.mpr ⟨first.whileLoop, admitted⟩, ready⟩
  | whileExit => exact ⟨(List.forall_mem_cons.mp admitted).2, ready⟩
  | halt => exact ⟨by simp, ready⟩

/-- A structural run of statements with a meaning goes on as long as any of them is left. -/
theorem exists_steps {first : Statement} {rest : List Statement} {tape : Tape} {halted : Bool}
    (admits : program.Admits first) (ready : tape.Ready cursor) :
    ∃ next, program.Steps cursor ⟨first :: rest, tape, halted⟩ next := by
  have decided {condition : Expression} (typed : HasType condition .boolean) :
      condition.Yields tape cursor (.boolean true) ∨
        condition.Yields tape cursor (.boolean false) := by
    obtain ⟨value, yields, type⟩ := typed.yields ready
    obtain ⟨truth, rfl⟩ := Value.eq_boolean type
    cases truth with
    | true => exact .inl yields
    | false => exact .inr yields
  cases first with
  | empty line => exact ⟨_, .empty⟩
  | move direction expression line =>
      obtain ⟨value, yields, type⟩ := HasType.yields admits.typed ready
      obtain ⟨distance, rfl⟩ := Value.eq_number type
      exact ⟨_, .move yields (ready.move_eq _ _)⟩
  | write expression line =>
      obtain ⟨value, yields, type⟩ := HasType.yields admits.typed ready
      obtain ⟨glyph, rfl⟩ := Value.eq_character type
      exact ⟨_, .write yields (ready.write_eq glyph)⟩
  | goto label line =>
      obtain ⟨body, found⟩ :=
        Option.isSome_iff_exists.mp (admits.resolved label (by simp [Statement.gotos]))
      exact ⟨_, .goto found⟩
  | ifThen condition body line =>
      rcases decided admits.typed.1 with holds | fails
      · exact ⟨_, .ifThen holds⟩
      · exact ⟨_, .ifThenSkip fails⟩
  | ifElse condition thenBody elseBody line =>
      rcases decided admits.typed.1 with holds | fails
      · exact ⟨_, .ifElseThen holds⟩
      · exact ⟨_, .ifElse fails⟩
  | whileLoop condition body line =>
      rcases decided admits.typed.1 with holds | fails
      · exact ⟨_, .whileLoop holds⟩
      · exact ⟨_, .whileExit fails⟩
  | halt line => exact ⟨_, .halt⟩

end Program

end TapeMachine
