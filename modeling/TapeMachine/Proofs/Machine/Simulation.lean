import TapeMachine.Proofs.Machine.Traversal

/-!
Contract: lowered code does what the statements say.

Owns: when a sequence performs some pending statements from an index on, when a machine tracks a
structural run, and that a machine which tracks one goes along with its steps and its end.

Between two statements, code may lead a machine over jumps that no statement asks for: the saved
condition behind a then branch and the way back behind the body of a loop. A step of the structural
run that costs the machine no instruction leaves fewer statements pending.
-/

namespace TapeMachine

/-- From an index on, with some values on the stack, a sequence performs some statements and ends. -/
inductive Performs (code : Array Instruction) : Nat → List Value → List Statement → Prop where
  | finished {index : Nat} {stack : List Value} (beyond : code.size ≤ index) :
      Performs code index stack []
  | statement {index : Nat} {stack : List Value} {entry : Statement} {rest : List Statement}
      (here : Contains code index entry.code.instructions)
      (others : Performs code (index + entry.code.length) stack rest) :
      Performs code index stack (entry :: rest)
  /-- Behind a then branch the saved condition leads past the else branch. -/
  | saved {index count : Nat} {stack : List Value} {statements : List Statement}
      (jump : code[index]? = some (.jumpIf (count : Int)))
      (others : Performs code (index + 1 + count) stack statements) :
      Performs code index (.boolean true :: stack) statements
  /-- Behind the body of a loop a jump leads back to the condition. -/
  | again {index target : Nat} {offset : Int} {stack : List Value} {statements : List Statement}
      (jump : code[index]? = some (.jump offset)) (leads : jumpTarget index offset = some target)
      (others : Performs code target stack statements) :
      Performs code index stack statements

namespace Performs

variable {code : Array Instruction} {index : Nat} {stack : List Value} {rest : List Statement}

theorem cast {place : Nat} (performs : Performs code index stack rest) (same : place = index) :
    Performs code place stack rest :=
  same ▸ performs

theorem append {statements : List Statement}
    (here : Contains code index (Statement.codeOf statements).instructions)
    (others : Performs code (index + (Statement.codeOf statements).length) stack rest) :
    Performs code index stack (statements ++ rest) := by
  induction statements generalizing index with
  | nil => exact others
  | cons first statements inductionHypothesis =>
      simp only [Statement.codeOf, Code.instructions_append, List.length_append] at here others
      have behind := here.right
      rw [Code.length_instructions] at behind
      exact .statement here.left (inductionHypothesis behind (others.cast (Nat.add_assoc _ _ _)))

theorem block {body : Block} (here : Contains code index body.code.instructions)
    (others : Performs code (index + body.code.length) stack rest) :
    Performs code index stack (body.statements ++ rest) := by
  cases body with
  | mk statements line => exact append here others

/-- A whole sequence performs the statements that it is made from. -/
theorem whole {statements : List Statement}
    (same : code.toList = (Statement.codeOf statements).instructions) (stack : List Value) :
    Performs code 0 stack statements := by
  have size : code.size = (Statement.codeOf statements).length := by
    rw [← Array.length_toList, same, Code.length_instructions]
  have here : Contains code 0 (Statement.codeOf statements).instructions :=
    same ▸ Contains.whole code
  simpa using append here (.finished (by omega) : Performs code _ stack [])

end Performs

/-- The front of what is performed: the end of the sequence, or the code of the first statement. -/
def Fronts (code : Array Instruction) (index : Nat) (stack : List Value) : List Statement → Prop
  | [] => code.size ≤ index
  | entry :: rest =>
      Contains code index entry.code.instructions ∧
        Performs code (index + entry.code.length) stack rest

/-- Jumps lead a machine to the front of what is performed. -/
theorem Performs.front {code : Array Instruction} {index : Nat} {stack : List Value}
    {statements : List Statement} (performs : Performs code index stack statements)
    (program : Executable) (cursor : CursorId) (tape : Tape) :
    ∃ count target below,
      Traverses program cursor code count ⟨index, stack, tape⟩ ⟨target, below, tape⟩ ∧
        Fronts code target below statements := by
  induction performs with
  | finished beyond => exact ⟨0, _, _, .refl _, beyond⟩
  | statement here others => exact ⟨0, _, _, .refl _, here, others⟩
  | saved jump _ inductionHypothesis =>
      rcases inductionHypothesis with ⟨count, target, below, traverses, fronts⟩
      exact ⟨1 + count, target, below, (traverses_jumpIf jump).trans traverses, fronts⟩
  | again jump leads _ inductionHypothesis =>
      rcases inductionHypothesis with ⟨count, target, below, traverses, fronts⟩
      exact ⟨1 + count, target, below, (traverses_jump jump leads).trans traverses, fronts⟩

/-! ## Statements -/

section Statements

variable {program : Executable} {cursor : CursorId} {code : Array Instruction} {index : Nat}
  {stack : List Value} {tape : Tape} {rest : List Statement}

/-- Machines get from a place to one from where other statements are performed, in at least one
step. -/
def Leaves (program : Executable) (cursor : CursorId) (code : Array Instruction) (first : Spot)
    (statements : List Statement) (behind : Tape) : Prop :=
  ∃ count index stack, 0 < count ∧ Traverses program cursor code count first ⟨index, stack, behind⟩ ∧
    Performs code index stack statements

theorem leaves_move {direction : Direction} {expression : Expression} {line : Nat} {distance : Int}
    (here : Contains code index (Statement.move direction expression line).code.instructions)
    (others : Performs code (index + (Statement.move direction expression line).code.length)
      stack rest)
    (yields : expression.Yields tape cursor (.number distance)) (ready : tape.Ready cursor) :
    Leaves program cursor code ⟨index, stack, tape⟩ rest
      (tape.walk cursor distance.natAbs (direction.toward distance)) := by
  rcases yields with ⟨glyph, reads, evaluates⟩
  simp only [Statement.code, Code.instructions_append, List.length_append] at here others
  have last := here.right.head
  rw [Code.length_instructions] at last
  obtain ⟨count, positive, moves⟩ := traverses_move last ready
  exact ⟨_, _, _, Nat.add_pos_right _ positive,
    (Expression.traverses here.left reads evaluates).trans moves, others⟩

theorem leaves_write {expression : Expression} {line : Nat} {glyph : Char}
    (here : Contains code index (Statement.write expression line).code.instructions)
    (others : Performs code (index + (Statement.write expression line).code.length) stack rest)
    (yields : expression.Yields tape cursor (.character glyph)) (ready : tape.Ready cursor) :
    Leaves program cursor code ⟨index, stack, tape⟩ rest (tape.put cursor glyph) := by
  rcases yields with ⟨found, reads, evaluates⟩
  simp only [Statement.code, Code.instructions_append, List.length_append] at here others
  have last := here.right.head
  rw [Code.length_instructions] at last
  exact ⟨_, _, _, Nat.succ_pos _,
    (Expression.traverses here.left reads evaluates).trans (traverses_write last ready), others⟩

theorem leaves_ifThen {condition : Expression} {body : Block} {line : Nat} {truth : Bool}
    (here : Contains code index (Statement.ifThen condition body line).code.instructions)
    (others : Performs code (index + (Statement.ifThen condition body line).code.length)
      stack rest)
    (yields : condition.Yields tape cursor (.boolean truth)) :
    Leaves program cursor code ⟨index, stack, tape⟩
      (if truth then body.statements ++ rest else rest) tape := by
  rw [Statement.instructions_ifThen] at here
  rw [Statement.length_ifThen] at others
  have bodyHere := here.right.tail.tail
  rw [Code.length_instructions] at bodyHere
  refine ⟨_, _, _, Nat.succ_pos _, traverses_condition here yields, ?_⟩
  cases truth with
  | true => exact .block bodyHere (others.cast (by simp only [↓reduceIte]; omega))
  | false => exact others.cast (by simp only [Bool.false_eq_true, ↓reduceIte]; omega)

/-- The then branch runs above the saved condition, which the jump behind it pops. -/
theorem leaves_ifElse {condition : Expression} {thenBody elseBody : Block} {line : Nat}
    {truth : Bool}
    (here : Contains code index
      (Statement.ifElse condition thenBody elseBody line).code.instructions)
    (others : Performs code
      (index + (Statement.ifElse condition thenBody elseBody line).code.length) stack rest)
    (yields : condition.Yields tape cursor (.boolean truth)) :
    Leaves program cursor code ⟨index, stack, tape⟩
      (if truth then thenBody.statements ++ rest else elseBody.statements ++ rest) tape := by
  rcases yields with ⟨glyph, reads, evaluates⟩
  rw [Statement.instructions_ifElse] at here
  rw [Statement.length_ifElse] at others
  have copy := here.right
  rw [Code.length_instructions] at copy
  have thenHere := copy.tail.tail.tail
  have jump := thenHere.right.head
  have elseHere := thenHere.right.tail
  rw [Code.length_instructions] at jump elseHere
  -- The copy decides; the condition itself stays below for the jump behind the then branch.
  have tests : Traverses program cursor code _ ⟨index, stack, tape⟩ _ :=
    ((Expression.traverses here.left reads evaluates).trans (traverses_duplicate copy.head)).trans
      (traverses_branch truth copy.tail)
  cases truth with
  | true =>
      refine ⟨_, _, _, Nat.succ_pos _, tests, ?_⟩
      simp only [↓reduceIte, Nat.add_zero]
      exact .block thenHere.left (.saved jump (others.cast (by omega)))
  | false =>
      have skips := tests.trans (traverses_jumpIf jump)
      simp only [Bool.false_eq_true, ↓reduceIte, Nat.add_zero] at skips ⊢
      exact ⟨_, _, _, Nat.succ_pos _, skips, .block elseHere (others.cast (by omega))⟩

theorem leaves_whileLoop {condition : Expression} {body : Block} {line : Nat} {truth : Bool}
    (here : Contains code index (Statement.whileLoop condition body line).code.instructions)
    (others : Performs code (index + (Statement.whileLoop condition body line).code.length)
      stack rest)
    (yields : condition.Yields tape cursor (.boolean truth)) :
    Leaves program cursor code ⟨index, stack, tape⟩
      (if truth then body.statements ++ .whileLoop condition body line :: rest else rest) tape := by
  -- Where the jump behind the body leads, the whole loop is performed once more.
  have again : Performs code index stack (.whileLoop condition body line :: rest) :=
    .statement here others
  rw [Statement.instructions_whileLoop] at here
  rw [Statement.length_whileLoop] at others
  have bodyHere := here.right.tail.tail
  have jump := bodyHere.right.head
  rw [Code.length_instructions] at bodyHere
  simp only [Code.length_instructions] at jump
  refine ⟨_, _, _, Nat.succ_pos _, traverses_condition here yields, ?_⟩
  cases truth with
  | true =>
      simp only [↓reduceIte, Nat.add_zero]
      refine .block bodyHere.left (.again jump (jumpTarget_backward ?_ ?_) (again.cast ?_)) <;>
        omega
  | false => exact others.cast (by simp only [Bool.false_eq_true, ↓reduceIte]; omega)

end Statements

/-! ## Structural runs -/

/-- A machine tracks a structural run: it stands where the pending statements are performed, or
both were halted. -/
inductive Tracks (program : Program) : Machine → Pending → Prop where
  | running {machine : Machine} {code : Array Instruction} {index : Nat} {stack : List Value}
      {statements : List Statement} {tape : Tape}
      (stands : machine.Stands program.executable code index stack)
      (performs : Performs code index stack statements) :
      Tracks program machine.settle ⟨statements, tape, false⟩
  | halted {machine : Machine} {tape : Tape} (idle : machine.hasMoreWork = false)
      (flag : machine.halted = true) : Tracks program machine ⟨[], tape, true⟩

/-- A machine goes along with a structural run from one point to another: it takes steps, or fewer
statements are pending. -/
def Accompanies (program : Program) (cursor : CursorId) (machine : Machine)
    (pending next : Pending) : Prop :=
  ∃ count after, machine.Advances cursor pending.tape count after next.tape ∧
    Tracks program after next ∧
    (0 < count ∨ next.statements.length < pending.statements.length)

section Runs

variable {program : Program} {cursor : CursorId} {machine : Machine} {code : Array Instruction}
  {index : Nat} {stack : List Value}

theorem Machine.Stands.idle (stands : machine.Stands program.executable code index stack)
    (beyond : code.size ≤ index) :
    machine.settle.hasMoreWork = false ∧ machine.settle.halted = false := by
  simp [settle, stands.still, stands.active, stands.index, beyond, finish, hasMoreWork,
    stands.running]

theorem Leaves.accompanies {statements rest : List Statement} {tape behind : Tape}
    (leaves : Leaves program.executable cursor code ⟨index, stack, tape⟩ rest behind)
    (stands : machine.Stands program.executable code index stack) :
    Accompanies program cursor machine.settle ⟨statements, tape, false⟩ ⟨rest, behind, false⟩ := by
  rcases leaves with ⟨count, target, below, positive, traverses, performs⟩
  obtain ⟨after, afterStands, advances⟩ := traverses machine stands
  exact ⟨count, after.settle, advances, .running afterStands performs, .inl positive⟩

/-- A jump to a label begins the body of its last definition, whatever is left on the stack. -/
theorem accompanies_goto {label : String} {line : Nat} {rest : List Statement} {tape : Tape}
    {body : Block} (stands : machine.Stands program.executable code index stack)
    (here : Contains code index (Statement.goto label line).code.instructions)
    (found : program.body? label = some body) :
    Accompanies program cursor machine.settle ⟨.goto label line :: rest, tape, false⟩
      ⟨body.statements, tape, false⟩ := by
  have lookup : machine.countStep.program.labels.get? label = some (.ofCode body.code) := by
    rw [stands.countStep.program, program.labels_get?, found]
    rfl
  have entered : ({ machine.countStep with
      active := some (Sequence.ofCode body.code).instructions
      routine := .label label
      index := 0 } : Machine).Stands program.executable (Sequence.ofCode body.code).instructions 0
        stack :=
    ⟨stands.program, rfl, rfl, stands.stack, stands.still, stands.running⟩
  have same : (Sequence.ofCode body.code).instructions.toList =
      (Statement.codeOf body.statements).instructions := by
    cases body with
    | mk statements line => rfl
  have executed : machine.countStep.execute (tape.read cursor) (.call label) =
      .ok ({ machine.countStep with
        active := some (Sequence.ofCode body.code).instructions
        routine := .label label
        index := 0 }, .none) := by
    simp only [Machine.execute, lookup]
  exact ⟨1, _, stands.advances here.head executed rfl, .running entered (.whole same stack),
    .inl Nat.one_pos⟩

theorem accompanies_halt {line : Nat} {rest : List Statement} {tape : Tape}
    (stands : machine.Stands program.executable code index stack)
    (here : Contains code index (Statement.halt line).code.instructions) :
    Accompanies program cursor machine.settle ⟨.halt line :: rest, tape, false⟩
      ⟨[], tape, true⟩ :=
  ⟨1, _, stands.advances here.head rfl rfl, .halted rfl rfl, .inl Nat.one_pos⟩

theorem accompanies_of_fronts {entry : Statement} {rest : List Statement} {tape : Tape}
    {next : Pending} (stands : machine.Stands program.executable code index stack)
    (here : Contains code index entry.code.instructions)
    (others : Performs code (index + entry.code.length) stack rest)
    (ready : tape.Ready cursor)
    (step : program.Steps cursor ⟨entry :: rest, tape, false⟩ next) :
    Accompanies program cursor machine.settle ⟨entry :: rest, tape, false⟩ next := by
  cases step with
  | empty => exact ⟨0, _, .refl, .running stands others, .inr (Nat.lt_succ_self _)⟩
  | move yields moves =>
      rw [ready.move_eq] at moves
      obtain rfl := Except.ok.inj moves
      exact (leaves_move here others yields ready).accompanies stands
  | write yields writes =>
      rw [ready.write_eq] at writes
      obtain rfl := Except.ok.inj writes
      exact (leaves_write here others yields ready).accompanies stands
  | goto found => exact accompanies_goto stands here found
  | ifThen holds => exact (leaves_ifThen here others holds).accompanies stands
  | ifThenSkip fails => exact (leaves_ifThen here others fails).accompanies stands
  | ifElseThen holds => exact (leaves_ifElse here others holds).accompanies stands
  | ifElse fails => exact (leaves_ifElse here others fails).accompanies stands
  | whileLoop holds => exact (leaves_whileLoop here others holds).accompanies stands
  | whileExit fails => exact (leaves_whileLoop here others fails).accompanies stands
  | halt => exact accompanies_halt stands here

/-- A machine that tracks a structural run goes along with its next step. -/
theorem Tracks.accompanies {pending next : Pending} (tracks : Tracks program machine pending)
    (ready : pending.tape.Ready cursor) (step : program.Steps cursor pending next) :
    Accompanies program cursor machine pending next := by
  cases tracks with
  | halted idle flag => nomatch step
  | @running base code index stack statements tape stands performs =>
      obtain ⟨count, target, below, traverses, fronts⟩ :=
        performs.front program.executable cursor tape
      cases statements with
      | nil => nomatch step
      | cons entry rest =>
          rcases fronts with ⟨here, others⟩
          obtain ⟨front, frontStands, begins⟩ := traverses base stands
          obtain ⟨further, after, advances, nextTracks, progress⟩ :=
            accompanies_of_fronts frontStands here others ready step
          exact ⟨count + further, after, begins.trans advances, nextTracks,
            progress.imp_left (Nat.add_pos_right count)⟩

/-- Where nothing is pending, a machine that tracks it comes to its end. -/
theorem Tracks.ends {tape : Tape} {halted : Bool}
    (tracks : Tracks program machine ⟨[], tape, halted⟩) (cursor : CursorId) :
    ∃ count, machine.Ends cursor tape count tape halted := by
  cases tracks with
  | halted idle flag => exact ⟨0, machine, .refl, idle, flag⟩
  | @running base code index stack statements tape stands performs =>
      obtain ⟨count, target, below, traverses, beyond⟩ :=
        performs.front program.executable cursor tape
      obtain ⟨last, lastStands, advances⟩ := traverses base stands
      obtain ⟨idle, flag⟩ := lastStands.idle beyond
      exact ⟨count, last.settle, advances, idle, flag⟩

variable {final : Tape} {halted : Bool}

/-- The end of a structural run is the end of a machine that tracks it. -/
theorem Tracks.ends_of_reaches (typed : program.WellTyped) (resolved : program.Resolved)
    {pending : Pending} (reaches : program.Reaches cursor pending ⟨[], final, halted⟩)
    (tracks : Tracks program machine pending) (valid : pending.Valid program cursor) :
    ∃ count, machine.Ends cursor pending.tape count final halted := by
  induction reaches using Relation.ReflTransGen.head_induction_on generalizing machine with
  | refl => exact tracks.ends cursor
  | head step _ inductionHypothesis =>
      obtain ⟨count, after, advances, nextTracks, -⟩ := tracks.accompanies valid.ready step
      obtain ⟨others, ends⟩ := inductionHypothesis nextTracks (step.valid typed resolved valid)
      exact ⟨count + others, ends.before advances⟩

/-- The end of a machine is the end of the structural run that it tracks. The recursion is on the
steps that are left, and on the pending statements where the machine takes none. -/
theorem Tracks.reaches_of_ends (typed : program.WellTyped) (resolved : program.Resolved)
    {machine : Machine} {pending : Pending} {count : Nat} (tracks : Tracks program machine pending)
    (valid : pending.Valid program cursor)
    (ends : machine.Ends cursor pending.tape count final halted) :
    program.Reaches cursor pending ⟨[], final, halted⟩ := by
  match pending with
  | ⟨[], tape, flag⟩ =>
      obtain ⟨others, last⟩ := tracks.ends cursor
      obtain ⟨rfl, rfl⟩ := last.unique ends
      exact .refl
  | ⟨entry :: rest, tape, flag⟩ =>
      obtain ⟨next, step⟩ :=
        Program.exists_steps (valid.admitted entry List.mem_cons_self) valid.ready
      obtain ⟨taken, after, advances, nextTracks, progress⟩ :=
        tracks.accompanies valid.ready step
      obtain ⟨enough, others⟩ := ends.after advances
      exact .head step
        (nextTracks.reaches_of_ends typed resolved (step.valid typed resolved valid) others)
termination_by (count, pending.statements.length)
decreasing_by
  rw [Prod.lex_def]
  rcases Nat.eq_zero_or_pos taken with rfl | positive
  · exact .inr ⟨rfl, progress.resolve_left (Nat.lt_irrefl 0)⟩
  · exact .inl (Nat.sub_lt (Nat.lt_of_lt_of_le positive enough) positive)

end Runs

end TapeMachine
