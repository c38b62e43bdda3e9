import TapeMachine.Code.Lowering
import TapeMachine.Proofs.Syntax.Routine

/-!
Contract: the instructions of a program, without their lines.

Owns: the instructions of code and of each branching statement, what it means that a sequence
contains them at an index, where jumps lead, and the instructions of the routines of an executable.
-/

namespace TapeMachine

def Code.instructions (code : Code) : List Instruction :=
  code.map Placed.instruction

namespace Code

@[simp] theorem instructions_nil : instructions [] = [] := rfl

@[simp] theorem instructions_cons (placed : Placed) (code : Code) :
    instructions (placed :: code) = placed.instruction :: instructions code := rfl

@[simp] theorem instructions_append (first second : Code) :
    instructions (first ++ second) = instructions first ++ instructions second :=
  List.map_append

@[simp] theorem length_instructions (code : Code) : (instructions code).length = code.length :=
  List.length_map _

@[simp] theorem toList_ofCode (code : Code) :
    (Sequence.ofCode code).instructions.toList = code.instructions := rfl

end Code

/-! ## Layouts of branching statements -/

namespace Statement

variable (condition : Expression) (body thenBody elseBody : Block) (line : Nat)

theorem instructions_ifThen :
    (ifThen condition body line).code.instructions =
      condition.code.instructions ++ .compare .negation :: .jumpIf body.code.length ::
        body.code.instructions := by
  simp [Statement.code]

theorem length_ifThen :
    (ifThen condition body line).code.length =
      condition.code.length + 2 + body.code.length := by
  simp only [Statement.code, List.length_append, List.length_cons, List.length_nil]

theorem instructions_ifElse :
    (ifElse condition thenBody elseBody line).code.instructions =
      condition.code.instructions ++ .duplicate :: .compare .negation ::
        .jumpIf thenBody.code.length :: (thenBody.code.instructions ++
          .jumpIf elseBody.code.length :: elseBody.code.instructions) := by
  simp [Statement.code]

theorem length_ifElse :
    (ifElse condition thenBody elseBody line).code.length =
      condition.code.length + 3 + thenBody.code.length + 1 + elseBody.code.length := by
  simp only [Statement.code, List.length_append, List.length_cons, List.length_nil]

theorem instructions_whileLoop :
    (whileLoop condition body line).code.instructions =
      condition.code.instructions ++ .compare .negation :: .jumpIf (body.code.length + 1 : Nat) ::
        (body.code.instructions ++
          [.jump (-(body.code.length + 2 + condition.code.length : Nat))]) := by
  simp [Statement.code]

theorem length_whileLoop :
    (whileLoop condition body line).code.length =
      condition.code.length + 2 + body.code.length + 1 := by
  simp only [Statement.code, List.length_append, List.length_cons, List.length_nil]

end Statement

/-! ## Pieces of a sequence -/

/-- From an index on, a sequence begins with a piece. -/
def Contains (code : Array Instruction) (index : Nat) (piece : List Instruction) : Prop :=
  piece <+: code.toList.drop index

namespace Contains

variable {code : Array Instruction} {index : Nat} {first second : List Instruction}

theorem whole (code : Array Instruction) : Contains code 0 code.toList :=
  List.prefix_refl _

theorem left (whole : Contains code index (first ++ second)) : Contains code index first :=
  (List.prefix_append first second).trans whole

theorem right (whole : Contains code index (first ++ second)) :
    Contains code (index + first.length) second := by
  rcases whole with ⟨rest, split⟩
  refine ⟨rest, ?_⟩
  rw [← List.drop_drop, ← split, List.append_assoc, List.drop_left]

theorem head {instruction : Instruction} (whole : Contains code index (instruction :: second)) :
    code[index]? = some instruction := by
  rcases whole with ⟨rest, split⟩
  have first := congrArg List.head? split
  rw [List.head?_drop, Array.getElem?_toList] at first
  exact first.symm

theorem tail {instruction : Instruction} (whole : Contains code index (instruction :: second)) :
    Contains code (index + 1) second :=
  right (show Contains code index ([instruction] ++ second) from whole)

end Contains

/-! ## Jumps -/

theorem jumpTarget_forward (index count : Nat) :
    jumpTarget index (count : Int) = some (index + 1 + count) := by
  simp [jumpTarget]

theorem jumpTarget_backward {index count : Nat} (positive : 0 < count) (reaches : count ≤ index) :
    jumpTarget index (-(count : Int)) = some (index - count) := by
  have negative : ¬ 0 ≤ -(count : Int) := by omega
  rw [jumpTarget, if_neg negative, Int.natAbs_neg, Int.natAbs_natCast, if_pos reaches]

/-! ## Routines of an executable -/

namespace Program

theorem main_code (program : Program) :
    program.items.flatMap Item.mainCode = Statement.codeOf program.statements := by
  unfold statements
  induction program.items with
  | nil => rfl
  | cons item others inductionHypothesis =>
      cases item with
      | label definition => simpa [Item.mainCode] using inductionHypothesis
      | statement entry => simp [Item.mainCode, Statement.codeOf, inductionHypothesis]

theorem main_instructions (program : Program) :
    program.executable.main.instructions.toList =
      (Statement.codeOf program.statements).instructions := by
  rw [← main_code]
  rfl

/-- Under a name, an executable has the code of the body of the last definition. -/
theorem labels_get? (program : Program) (name : String) :
    program.executable.labels.get? name =
      (program.body? name).map fun body => Sequence.ofCode body.code := by
  simp [executable, NameTable.get?_ofList, body?, ← List.map_reverse, List.find?_map,
    Function.comp_def]

end Program

theorem Buffer.compile_eq (buffer : Buffer) :
    buffer.compile = buffer.parse.1.map Program.executable := by
  unfold compile
  rcases buffer.parse with ⟨outcome, parser⟩
  cases outcome with
  | error error => rfl
  | ok program => rfl

/-- What can be lowered is a program, and the executable is that of the program. -/
theorem Buffer.parse_of_compile {buffer : Buffer} {executable : Executable}
    (compiled : buffer.compile = .ok executable) :
    ∃ program, buffer.parse.1 = .ok program ∧ executable = program.executable := by
  rw [compile_eq] at compiled
  cases parsed : buffer.parse.1 with
  | error error =>
      rw [parsed] at compiled
      contradiction
  | ok program =>
      rw [parsed] at compiled
      exact ⟨program, rfl, (Except.ok.inj compiled).symm⟩

end TapeMachine
