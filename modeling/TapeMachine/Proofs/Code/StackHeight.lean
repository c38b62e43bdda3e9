import Mathlib.Algebra.Ring.Int.Defs
import TapeMachine.Proofs.Code.Segment

/-!
Contract: how high the stack is in front of every instruction of lowered code.

Owns: what an instruction takes from the stack and what it puts there, the height of the stack along
a sequence, and that all jumps of lowered code lead to where the stack is as high as behind them.

Heights count from where the sequence was entered. The code of a statement leaves the stack as high
as it was, and so a loop does not raise it. Only a jump to a label can leave values behind: those
that the then branches around it have saved for their else branches.
-/

namespace TapeMachine

/-! ## Heights -/

namespace Instruction

/-- How many values an instruction takes from the stack. -/
def taken : Instruction → Nat
  | .duplicate => 1
  | .compare comparison => comparison.arity
  | .write => 1
  | .move _ => 1
  | .jumpIf _ => 1
  | _ => 0

/-- How many values an instruction puts on the stack. -/
def given : Instruction → Nat
  | .push _ => 1
  | .duplicate => 2
  | .compare _ => 1
  | .read => 1
  | _ => 0

def rise (instruction : Instruction) : Int :=
  instruction.given - instruction.taken

@[simp] theorem rise_duplicate : duplicate.rise = 1 := rfl

@[simp] theorem rise_negation : (compare .negation).rise = 0 := rfl

@[simp] theorem rise_binary (op : BinaryOp) : (compare (.binary op)).rise = -1 := rfl

@[simp] theorem rise_write : write.rise = -1 := rfl

@[simp] theorem rise_move (direction : Direction) : (move direction).rise = -1 := rfl

@[simp] theorem rise_jump (offset : Int) : (jump offset).rise = 0 := rfl

@[simp] theorem rise_jumpIf (offset : Int) : (jumpIf offset).rise = -1 := rfl

theorem rise_le_one (instruction : Instruction) : instruction.rise ≤ 1 := by
  cases instruction <;> simp only [rise, given, taken] <;> omega

end Instruction

/-- By how much instructions that are executed one after the other raise the stack. -/
def rise (code : List Instruction) : Int :=
  (code.map Instruction.rise).sum

@[simp] theorem rise_nil : rise [] = 0 := rfl

@[simp] theorem rise_cons (instruction : Instruction) (code : List Instruction) :
    rise (instruction :: code) = instruction.rise + rise code := rfl

@[simp] theorem rise_append (first second : List Instruction) :
    rise (first ++ second) = rise first + rise second := by
  simp [rise]

theorem rise_le_length (code : List Instruction) : rise code ≤ code.length := by
  induction code with
  | nil => exact Int.le_refl _
  | cons instruction code inductionHypothesis =>
      have single := instruction.rise_le_one
      rw [rise_cons, List.length_cons]
      omega

/-- How high the stack is in front of an instruction, counted from the beginning of the sequence. -/
def height (code : Array Instruction) (index : Nat) : Int :=
  rise (code.toList.take index)

@[simp] theorem height_zero (code : Array Instruction) : height code 0 = 0 := by
  simp [height]

theorem height_le_size (code : Array Instruction) (index : Nat) : height code index ≤ code.size := by
  have bound := rise_le_length (code.toList.take index)
  have shorter : (code.toList.take index).length ≤ code.size := List.length_take_le' index _
  unfold height
  omega

theorem height_succ {code : Array Instruction} {index : Nat} {instruction : Instruction}
    (found : code[index]? = some instruction) :
    height code (index + 1) = height code index + instruction.rise := by
  rw [← Array.getElem?_toList] at found
  simp [height, List.take_add_one, found]

/-- Behind a piece the stack is higher by what the piece raises it. -/
theorem Contains.height_eq {code : Array Instruction} {index : Nat} {piece : List Instruction}
    (here : Contains code index piece) :
    height code (index + piece.length) = height code index + rise piece := by
  rw [height, List.take_add, rise_append, ← List.prefix_iff_eq_take.mp here, height]

/-! ## What code leaves on the stack -/

theorem Expression.rise_code (expression : Expression) : rise expression.code.instructions = 1 := by
  induction expression with
  | binary op left right line leftHypothesis rightHypothesis =>
      simp [Expression.code, leftHypothesis, rightHypothesis]
  | negation operand line inductionHypothesis =>
      simp [Expression.code, inductionHypothesis]
  | nested inner line inductionHypothesis => exact inductionHypothesis
  | read line => rfl
  | literal value line => rfl

mutual

theorem Statement.rise_code : (statement : Statement) → rise statement.code.instructions = 0
  | .empty _ => rfl
  | .move _ distance _ => by
      simp [Statement.code, distance.rise_code]
  | .write value _ => by
      simp [Statement.code, value.rise_code]
  | .goto _ _ => rfl
  | .ifThen condition body line => by
      rw [Statement.instructions_ifThen]
      simp [condition.rise_code, Block.rise_code body]
  | .ifElse condition thenBody elseBody line => by
      rw [Statement.instructions_ifElse]
      simp [condition.rise_code, Block.rise_code thenBody, Block.rise_code elseBody]
  | .whileLoop condition body line => by
      rw [Statement.instructions_whileLoop]
      simp [condition.rise_code, Block.rise_code body]
  | .halt _ => rfl

theorem Block.rise_code : (block : Block) → rise block.code.instructions = 0
  | .mk statements _ => Statement.rise_codeOf statements

theorem Statement.rise_codeOf :
    (statements : List Statement) → rise (Statement.codeOf statements).instructions = 0
  | [] => rfl
  | first :: others => by
      simp [Statement.codeOf, Statement.rise_code first, Statement.rise_codeOf others]

end

/-! ## Values that jumps to labels leave behind -/

mutual

/-- The most values that a jump to a label leaves on the stack, when some are saved around the
statement. A then branch with an else branch behind it runs above one more saved value. -/
def Statement.leftover (saved : Nat) : Statement → Nat
  | .goto _ _ => saved
  | .ifThen _ body _ => body.leftover saved
  | .ifElse _ thenBody elseBody _ => max (thenBody.leftover (saved + 1)) (elseBody.leftover saved)
  | .whileLoop _ body _ => body.leftover saved
  | _ => 0

def Block.leftover (saved : Nat) : Block → Nat
  | .mk statements _ => Statement.leftoverOf saved statements

def Statement.leftoverOf (saved : Nat) : List Statement → Nat
  | [] => 0
  | first :: others => max (first.leftover saved) (Statement.leftoverOf saved others)

end

/-- From an index on, the jumps of a piece lead to where the stack is as high as behind them, and
at no jump to a label it is higher than a limit. -/
def Even (code : Array Instruction) (limit : Nat) (index : Nat) (piece : List Instruction) : Prop :=
  ∀ offset instruction, piece[offset]? = some instruction →
    (∀ target, instruction.target? (index + offset) = some target →
      height code target = height code (index + offset + 1)) ∧
    ∀ label, instruction = .call label → height code (index + offset) ≤ limit

namespace Even

variable {code : Array Instruction} {limit index : Nat}

theorem nil : Even code limit index [] := by
  simp [Even]

theorem append {first second : List Instruction} (head : Even code limit index first)
    (tail : Even code limit (index + first.length) second) :
    Even code limit index (first ++ second) := by
  intro offset instruction found
  by_cases inside : offset < first.length
  · rw [List.getElem?_append_left inside] at found
    exact head offset instruction found
  · rw [List.getElem?_append_right (Nat.le_of_not_lt inside)] at found
    have here : index + first.length + (offset - first.length) = index + offset := by omega
    have facts := tail _ instruction found
    rwa [here] at facts

theorem cons {instruction : Instruction} {rest : List Instruction}
    (leads : ∀ target, instruction.target? index = some target →
      height code target = height code (index + 1))
    (leaves : ∀ label, instruction = .call label → height code index ≤ limit)
    (tail : Even code limit (index + 1) rest) : Even code limit index (instruction :: rest) := by
  intro offset other found
  cases offset with
  | zero =>
      obtain rfl : instruction = other := by simpa using found
      exact ⟨leads, leaves⟩
  | succ offset =>
      have facts := tail offset other (by simpa using found)
      rwa [Nat.add_assoc, Nat.add_comm 1] at facts

/-- An instruction that neither jumps nor leaves the sequence. -/
theorem plain {instruction : Instruction} {rest : List Instruction}
    (still : ∀ index, instruction.target? index = none) (stays : ∀ label, instruction ≠ .call label)
    (tail : Even code limit (index + 1) rest) : Even code limit index (instruction :: rest) :=
  cons (by simp [still]) (fun label same => absurd same (stays label)) tail

/-- A jump forward over code that leaves the stack as high as it was. -/
theorem skip {count : Nat} {jumped rest : List Instruction} (length : count = jumped.length)
    (here : Contains code index (.jumpIf (count : Int) :: (jumped ++ rest))) (flat : rise jumped = 0)
    (tail : Even code limit (index + 1) (jumped ++ rest)) :
    Even code limit index (.jumpIf (count : Int) :: (jumped ++ rest)) := by
  subst length
  refine cons ?_ (by simp) tail
  intro target leads
  have beyond := here.tail.left.height_eq
  rw [flat, Int.add_zero] at beyond
  rw [Instruction.target?, Instruction.jumpOffset?, Option.bind_some, jumpTarget_forward] at leads
  obtain rfl := Option.some.inj leads
  exact beyond

end Even

theorem Expression.even {code : Array Instruction} {limit : Nat} (expression : Expression)
    (index : Nat) : Even code limit index expression.code.instructions := by
  induction expression generalizing index with
  | binary op left right line leftHypothesis rightHypothesis =>
      simp only [Expression.code, Code.instructions_append]
      exact .append (.append (leftHypothesis _) (rightHypothesis _))
        (.plain (fun _ => rfl) (by simp) .nil)
  | negation operand line inductionHypothesis =>
      simp only [Expression.code, Code.instructions_append]
      exact .append (inductionHypothesis _) (.plain (fun _ => rfl) (by simp) .nil)
  | nested inner line inductionHypothesis => exact inductionHypothesis _
  | read line => exact .plain (fun _ => rfl) (by simp) .nil
  | literal value line => exact .plain (fun _ => rfl) (by simp) .nil

section Branches

variable {code : Array Instruction} {limit saved index line : Nat} {condition : Expression}
  {rest : List Instruction}

/-- Behind a condition that has been negated and tested, the stack is as high as in front of it. -/
theorem height_tested {count : Int}
    (here : Contains code index
      (condition.code.instructions ++ .compare .negation :: .jumpIf count :: rest)) :
    height code (index + condition.code.instructions.length + 1 + 1) = height code index := by
  have value := here.left.height_eq
  have negated := height_succ here.right.head
  have tested := height_succ here.right.tail.head
  rw [condition.rise_code] at value
  simp only [Instruction.rise_negation, Instruction.rise_jumpIf] at negated tested
  omega

theorem even_ifThen {body : Block} (low : height code index ≤ saved)
    (here : Contains code index (Statement.ifThen condition body line).code.instructions)
    (bodyEven : ∀ index, height code index ≤ saved → Contains code index body.code.instructions →
      Even code limit index body.code.instructions) :
    Even code limit index (Statement.ifThen condition body line).code.instructions := by
  rw [Statement.instructions_ifThen] at here ⊢
  have level := height_tested here
  have jump := here.right.tail
  rw [← List.append_nil body.code.instructions] at jump ⊢
  refine .append (condition.even index) (.plain (fun _ => rfl) (by simp)
    (.skip (by simp) jump body.rise_code (.append (bodyEven _ ?_ jump.tail.left) .nil)))
  rwa [level]

theorem even_whileLoop {body : Block} (low : height code index ≤ saved)
    (here : Contains code index (Statement.whileLoop condition body line).code.instructions)
    (bodyEven : ∀ index, height code index ≤ saved → Contains code index body.code.instructions →
      Even code limit index body.code.instructions) :
    Even code limit index (Statement.whileLoop condition body line).code.instructions := by
  have round := here.height_eq
  rw [Statement.rise_code, Int.add_zero, Code.length_instructions, Statement.length_whileLoop]
    at round
  rw [Statement.instructions_whileLoop] at here ⊢
  have level := height_tested here
  have jump := here.right.tail
  rw [← List.append_nil (body.code.instructions ++ _)] at jump ⊢
  refine .append (condition.even index) (.plain (fun _ => rfl) (by simp)
    (.skip (by simp) jump (by simp [body.rise_code])
      (.append (.append (bodyEven _ ?_ jump.tail.left.left) (.cons ?_ (by simp) .nil)) .nil)))
  · rwa [level]
  · intro target leads
    rw [Instruction.target?, Instruction.jumpOffset?, Option.bind_some,
      jumpTarget_backward (by omega) (by simp; omega)] at leads
    obtain rfl := Option.some.inj leads
    simp only [Code.length_instructions]
    rw [show index + condition.code.length + 1 + 1 + body.code.length -
      (body.code.length + 2 + condition.code.length) = index by omega, ← round]
    congr 1
    omega

theorem even_ifElse {thenBody elseBody : Block} (low : height code index ≤ saved)
    (here : Contains code index
      (Statement.ifElse condition thenBody elseBody line).code.instructions)
    (thenEven : ∀ index, height code index ≤ (saved + 1 : Nat) →
      Contains code index thenBody.code.instructions →
      Even code limit index thenBody.code.instructions)
    (elseEven : ∀ index, height code index ≤ saved →
      Contains code index elseBody.code.instructions →
      Even code limit index elseBody.code.instructions) :
    Even code limit index (Statement.ifElse condition thenBody elseBody line).code.instructions := by
  rw [Statement.instructions_ifElse] at here ⊢
  have value := here.left.height_eq
  have doubled := height_succ here.right.head
  have negated := height_succ here.right.tail.head
  have tested := height_succ here.right.tail.tail.head
  have jump := here.right.tail.tail
  have saving := jump.tail.left.height_eq
  have skipped := height_succ jump.tail.right.head
  rw [condition.rise_code] at value
  rw [thenBody.rise_code] at saving
  simp only [Instruction.rise_duplicate, Instruction.rise_negation, Instruction.rise_jumpIf]
    at doubled negated tested skipped
  have jumpElse := jump.tail.right
  rw [← List.append_nil elseBody.code.instructions] at jumpElse ⊢
  refine .append (condition.even index) (.plain (fun _ => rfl) (by simp)
    (.plain (fun _ => rfl) (by simp)
      (.skip (by simp) (by simpa using jump) thenBody.rise_code
        (.append (thenEven _ ?_ jump.tail.left)
          (.skip (by simp) jumpElse elseBody.rise_code
            (.append (elseEven _ ?_ jumpElse.tail.left) .nil))))))
  · push_cast
    omega
  · omega

end Branches

mutual

/-- Wherever code of a statement stands, its jumps keep to the heights, and those to labels leave no
more than the statement says, if the stack is not higher in front of it than what is saved. -/
theorem Statement.even {code : Array Instruction} {limit : Nat} : (statement : Statement) →
    (saved : Nat) → statement.leftover saved ≤ limit → (index : Nat) → height code index ≤ saved →
    Contains code index statement.code.instructions →
    Even code limit index statement.code.instructions
  | .empty _, _, _, _, _, _ => .nil
  | .move _ distance _, _, _, index, _, _ => by
      simp only [Statement.code, Code.instructions_append]
      exact .append (distance.even index) (.plain (fun _ => rfl) (by simp) .nil)
  | .write value _, _, _, index, _, _ => by
      simp only [Statement.code, Code.instructions_append]
      exact .append (value.even index) (.plain (fun _ => rfl) (by simp) .nil)
  | .goto _ _, saved, within, index, low, _ => by
      simp only [Statement.leftover] at within
      exact .cons (by simp [Instruction.target?, Instruction.jumpOffset?]) (fun _ _ => by omega) .nil
  | .ifThen _ body _, saved, within, _, low, here =>
      even_ifThen low here fun index low here => Block.even body saved within index low here
  | .ifElse _ thenBody elseBody _, saved, within, _, low, here =>
      even_ifElse low here
        (fun index low here =>
          Block.even thenBody (saved + 1) (Nat.max_le.mp within).1 index low here)
        (fun index low here => Block.even elseBody saved (Nat.max_le.mp within).2 index low here)
  | .whileLoop _ body _, saved, within, _, low, here =>
      even_whileLoop low here fun index low here => Block.even body saved within index low here
  | .halt _, _, _, _, _, _ => .plain (fun _ => rfl) (by simp) .nil

theorem Block.even {code : Array Instruction} {limit : Nat} : (block : Block) →
    (saved : Nat) → block.leftover saved ≤ limit → (index : Nat) → height code index ≤ saved →
    Contains code index block.code.instructions → Even code limit index block.code.instructions
  | .mk statements _, saved, within, index, low, here =>
      Statement.evenAll statements saved within index low here

theorem Statement.evenAll {code : Array Instruction} {limit : Nat} :
    (statements : List Statement) → (saved : Nat) →
    Statement.leftoverOf saved statements ≤ limit → (index : Nat) → height code index ≤ saved →
    Contains code index (Statement.codeOf statements).instructions →
    Even code limit index (Statement.codeOf statements).instructions
  | [], _, _, _, _, _ => .nil
  | first :: others, saved, within, index, low, here => by
      simp only [Statement.codeOf, Code.instructions_append] at here ⊢
      obtain ⟨withinFirst, withinOthers⟩ := Nat.max_le.mp within
      have behind := here.left.height_eq
      rw [first.rise_code, Int.add_zero] at behind
      exact .append (Statement.even first saved withinFirst index low here.left)
        (Statement.evenAll others saved withinOthers _ (by rwa [behind]) here.right)

end

/-! ## Sequences of a program -/

/-- A sequence whose jumps keep to the heights, with limits for its length and for what its jumps to
labels leave behind. -/
structure Measured (size limit : Nat) (code : Array Instruction) : Prop where
  size : code.size ≤ size
  even : Even code limit 0 code.toList

theorem Block.measured (block : Block) {size limit : Nat} (short : block.code.length ≤ size)
    (within : block.leftover 0 ≤ limit) :
    Measured size limit (Sequence.ofCode block.code).instructions where
  size := by simpa [Sequence.ofCode] using short
  even := Block.even block 0 within 0 (by simp) (.whole _)

namespace Program

/-- How many instructions a program has in all of its routines. -/
def codeLength (program : Program) : Nat :=
  (Statement.codeOf program.statements ++
    program.labels.flatMap fun definition => definition.body.code).length

/-- The most values that a jump to a label leaves on the stack: the number of then branches with an
else branch behind them that one of the jumps stands in. -/
def leftover (program : Program) : Nat :=
  program.labels.foldr (fun definition most => max (definition.body.leftover 0) most)
    (Statement.leftoverOf 0 program.statements)

theorem leftover_le_of_mem {definition : LabelDefinition} {labels : List LabelDefinition}
    (member : definition ∈ labels) (least : Nat) :
    definition.body.leftover 0 ≤
      labels.foldr (fun definition most => max (definition.body.leftover 0) most) least := by
  induction member with
  | head others => exact Nat.le_max_left _ _
  | tail first present inductionHypothesis =>
      exact Nat.le_trans inductionHypothesis (Nat.le_max_right _ _)

theorem le_foldr_leftover (labels : List LabelDefinition) (least : Nat) :
    least ≤ labels.foldr (fun definition most => max (definition.body.leftover 0) most) least := by
  induction labels with
  | nil => exact Nat.le_refl _
  | cons first others inductionHypothesis =>
      exact Nat.le_trans inductionHypothesis (Nat.le_max_right _ _)

theorem measured_main (program : Program) :
    Measured program.codeLength program.leftover program.executable.main.instructions := by
  have same : program.executable.main =
      Sequence.ofCode (Statement.codeOf program.statements) := by
    rw [← main_code]
    rfl
  rw [same]
  exact Block.measured (.mk program.statements 0)
    (List.sublist_append_left _ _).length_le (le_foldr_leftover program.labels _)

theorem measured_label {program : Program} {name : String} {sequence : Sequence}
    (found : program.executable.labels.get? name = some sequence) :
    Measured program.codeLength program.leftover sequence.instructions := by
  rw [labels_get?] at found
  obtain ⟨body, isBody, rfl⟩ := Option.map_eq_some_iff.mp found
  obtain ⟨definition, member, rfl⟩ := label_of_body? isBody
  have listed : definition ∈ program.labels := List.mem_filterMap.mpr ⟨_, member, rfl⟩
  have part : definition.body.code.Sublist
      (program.labels.flatMap fun definition => definition.body.code) :=
    List.sublist_flatten_of_mem (List.mem_map_of_mem listed)
  exact Block.measured _ (part.trans (List.sublist_append_right _ _)).length_le
    (leftover_le_of_mem listed _)

end Program

end TapeMachine
