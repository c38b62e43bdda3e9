import TapeMachine.Proofs.Code.Segment

/-!
Contract: the types of the values on the stack in front of every instruction of lowered code.

Owns: stack maps of expressions and statements, what it means that an instruction agrees with a
map, and the agreement of all code of well-typed trees with its map.

A map only says what is on top of the stack. Below it anything may lie: a jump to a label leaves
behind whatever the interrupted statements had put there.
-/

namespace TapeMachine

/-! ## Stack maps -/

/-- The types on the stack in front of each instruction of an expression, top first, when some
types are there in front of the first one. -/
def Expression.stackMap (base : List ValueType) : Expression → List (List ValueType)
  | .binary _ left right _ =>
      left.stackMap base ++ right.stackMap (left.type :: base) ++
        [right.type :: left.type :: base]
  | .negation operand _ => operand.stackMap base ++ [operand.type :: base]
  | .nested inner _ => inner.stackMap base
  | .read _ => [base]
  | .literal _ _ => [base]

mutual

/-- The types on the stack in front of each instruction of a statement. The then branch of a
statement with two branches runs above the saved value of the condition. -/
def Statement.stackMap (base : List ValueType) : Statement → List (List ValueType)
  | .empty _ => []
  | .move _ distance _ => distance.stackMap base ++ [.number :: base]
  | .write value _ => value.stackMap base ++ [.character :: base]
  | .goto _ _ => [base]
  | .ifThen condition body _ =>
      condition.stackMap base ++ ([.boolean :: base, .boolean :: base] ++ body.stackMap base)
  | .ifElse condition thenBody elseBody _ =>
      condition.stackMap base ++
        ([.boolean :: base, .boolean :: .boolean :: base, .boolean :: .boolean :: base] ++
          (thenBody.stackMap (.boolean :: base) ++
            ([.boolean :: base] ++ elseBody.stackMap base)))
  | .whileLoop condition body _ =>
      condition.stackMap base ++
        ([.boolean :: base, .boolean :: base] ++ (body.stackMap base ++ [base]))
  | .halt _ => [base]

def Block.stackMap (base : List ValueType) : Block → List (List ValueType)
  | .mk statements _ => Statement.stackMapOf base statements

def Statement.stackMapOf (base : List ValueType) : List Statement → List (List ValueType)
  | [] => []
  | first :: others => first.stackMap base ++ Statement.stackMapOf base others

end

/-! ## Agreement with a map -/

/-- Going to an index is allowed with some types on the stack: the types that the map has there
lie on top. Behind the last instruction, anything is allowed. -/
def Enters (map : List (List ValueType)) (index : Nat) (types : List ValueType) : Prop :=
  ∀ entry, map[index]? = some entry → entry <+: types

/-- With some types on the stack, an instruction at an index finds the operands that it needs and
goes on where it is allowed to. -/
inductive Flows (defined : String → Prop) (map : List (List ValueType)) (index : Nat) :
    List ValueType → Instruction → Prop where
  | push {types : List ValueType} {value : Value}
      (next : Enters map (index + 1) (value.type :: types)) :
      Flows defined map index types (.push value)
  | duplicate {types : List ValueType} {top : ValueType}
      (next : Enters map (index + 1) (top :: top :: types)) :
      Flows defined map index (top :: types) .duplicate
  | negate {types : List ValueType} (next : Enters map (index + 1) (.boolean :: types)) :
      Flows defined map index (.boolean :: types) (.compare .negation)
  | compare {types : List ValueType} {op : BinaryOp} {left right : ValueType}
      (logical : op.isLogical = true → left = .boolean ∧ right = .boolean)
      (next : Enters map (index + 1) (.boolean :: types)) :
      Flows defined map index (right :: left :: types) (.compare (.binary op))
  | read {types : List ValueType} (next : Enters map (index + 1) (.character :: types)) :
      Flows defined map index types .read
  | write {types : List ValueType} (next : Enters map (index + 1) types) :
      Flows defined map index (.character :: types) .write
  | move {types : List ValueType} {direction : Direction} (next : Enters map (index + 1) types) :
      Flows defined map index (.number :: types) (.move direction)
  | jump {types : List ValueType} {offset : Int} {target : Nat}
      (leads : jumpTarget index offset = some target) (next : Enters map target types) :
      Flows defined map index types (.jump offset)
  | jumpIf {types : List ValueType} {offset : Int} {target : Nat}
      (falls : Enters map (index + 1) types) (leads : jumpTarget index offset = some target)
      (jumps : Enters map target types) :
      Flows defined map index (.boolean :: types) (.jumpIf offset)
  | call {types : List ValueType} {label : String} (found : defined label) :
      Flows defined map index types (.call label)
  | halt {types : List ValueType} : Flows defined map index types .halt

/-- A piece of code agrees with its piece of a map between two others. -/
structure Covers (defined : String → Prop) (before : List (List ValueType))
    (code : List Instruction) (map after : List (List ValueType)) : Prop where
  length : code.length = map.length
  flows : ∀ offset instruction entry, code[offset]? = some instruction →
    map[offset]? = some entry →
    Flows defined (before ++ (map ++ after)) (before.length + offset) entry instruction

/-- What comes next may be entered with some types on the stack. -/
def Leads (after : List (List ValueType)) (types : List ValueType) : Prop :=
  ∀ entry ∈ after.head?, entry <+: types

theorem leads_nil (types : List ValueType) : Leads [] types := by
  simp [Leads]

theorem leads_cons (types : List ValueType) (after : List (List ValueType)) :
    Leads (types :: after) types := by
  simp [Leads]

theorem enters_of_leads {before after : List (List ValueType)} {types : List ValueType}
    (leads : Leads after types) {index : Nat} (place : index = before.length) :
    Enters (before ++ after) index types := by
  subst place
  intro entry found
  rw [List.getElem?_append_right (Nat.le_refl _), Nat.sub_self, ← List.head?_eq_getElem?] at found
  exact leads entry found

namespace Covers

variable {defined : String → Prop} {before after : List (List ValueType)}

theorem nil : Covers defined before [] [] after :=
  ⟨rfl, by simp⟩

theorem single {instruction : Instruction} {entry : List ValueType}
    (flows : Flows defined (before ++ (entry :: after)) before.length entry instruction) :
    Covers defined before [instruction] [entry] after := by
  refine ⟨rfl, ?_⟩
  intro offset found expected present required
  cases offset with
  | zero =>
      obtain rfl : instruction = found := by simpa using present
      obtain rfl : entry = expected := by simpa using required
      exact flows
  | succ offset => simp at present

theorem append {first second : List Instruction} {firstMap secondMap : List (List ValueType)}
    (head : Covers defined before first firstMap (secondMap ++ after))
    (tail : Covers defined (before ++ firstMap) second secondMap after) :
    Covers defined before (first ++ second) (firstMap ++ secondMap) after := by
  refine ⟨by simp [head.length, tail.length], ?_⟩
  intro offset instruction entry present required
  rw [List.append_assoc firstMap]
  by_cases inside : offset < first.length
  · rw [List.getElem?_append_left inside] at present
    rw [List.getElem?_append_left (head.length ▸ inside)] at required
    exact head.flows offset instruction entry present required
  · have beyond : first.length ≤ offset := Nat.le_of_not_lt inside
    rw [List.getElem?_append_right beyond] at present
    rw [List.getElem?_append_right (head.length ▸ beyond), ← head.length] at required
    have flows := tail.flows _ instruction entry present required
    rw [List.length_append, ← head.length, List.append_assoc] at flows
    rwa [show before.length + offset =
      before.length + first.length + (offset - first.length) by omega]

theorem cons {instruction : Instruction} {code : List Instruction} {entry : List ValueType}
    {map : List (List ValueType)}
    (flows : Flows defined (before ++ (entry :: (map ++ after))) before.length entry instruction)
    (tail : Covers defined (before ++ [entry]) code map after) :
    Covers defined before (instruction :: code) (entry :: map) after :=
  append (single flows) tail

end Covers

theorem enters_next {before after : List (List ValueType)} {entry types : List ValueType}
    (leads : Leads after types) : Enters (before ++ (entry :: after)) (before.length + 1) types := by
  rw [List.append_cons]
  exact enters_of_leads leads (by simp)

theorem enters_beyond {before skipped after rest : List (List ValueType)}
    {entry types : List ValueType} (leads : Leads after types) (split : rest = skipped ++ after)
    {count : Nat} (length : count = skipped.length) :
    Enters (before ++ (entry :: rest)) (before.length + 1 + count) types := by
  rw [split, ← List.cons_append, ← List.append_assoc]
  exact enters_of_leads leads (by simp [length]; omega)

/-! ## Code of expressions -/

theorem Expression.leads_stackMap (expression : Expression) (base : List ValueType)
    (after : List (List ValueType)) : Leads (expression.stackMap base ++ after) base := by
  induction expression generalizing after with
  | binary op left right line leftHypothesis rightHypothesis =>
      simp only [stackMap, List.append_assoc]
      exact leftHypothesis _
  | negation operand line inductionHypothesis =>
      simp only [stackMap, List.append_assoc]
      exact inductionHypothesis _
  | nested inner line inductionHypothesis => exact inductionHypothesis after
  | read line => exact leads_cons base after
  | literal value line => exact leads_cons base after

/-- Code of a typed expression leaves a value of its type on top of what was there. -/
theorem HasType.covers {defined : String → Prop} {expression : Expression} {type : ValueType}
    (typed : HasType expression type) {base : List ValueType} {before after : List (List ValueType)}
    (leads : Leads after (type :: base)) :
    Covers defined before expression.code.instructions (expression.stackMap base) after := by
  induction typed generalizing base before after with
  | @comparison op left right operands line plain leftType rightType leftHypothesis
      rightHypothesis =>
      simp only [Expression.code, Expression.stackMap, Code.instructions_append]
      rw [leftType.type_eq, rightType.type_eq]
      refine .append (.append (leftHypothesis ?_) (rightHypothesis (leads_cons _ _)))
        (.single (.compare ?_ (enters_next leads)))
      · exact right.leads_stackMap _ _
      · simp [plain]
  | @logical op left right line logical leftType rightType leftHypothesis rightHypothesis =>
      simp only [Expression.code, Expression.stackMap, Code.instructions_append]
      rw [leftType.type_eq, rightType.type_eq]
      refine .append (.append (leftHypothesis ?_) (rightHypothesis (leads_cons _ _)))
        (.single (.compare (fun _ => ⟨rfl, rfl⟩) (enters_next leads)))
      exact right.leads_stackMap _ _
  | negation operandType inductionHypothesis =>
      simp only [Expression.code, Expression.stackMap, Code.instructions_append]
      rw [operandType.type_eq]
      exact .append (inductionHypothesis (leads_cons _ _)) (.single (.negate (enters_next leads)))
  | nested innerType inductionHypothesis => exact inductionHypothesis leads
  | read => exact .single (.read (enters_next leads))
  | literal => exact .single (.push (enters_next leads))

/-! ## Code of statements -/

mutual

theorem Statement.leads_stackMap : (statement : Statement) → (base : List ValueType) →
    (after : List (List ValueType)) → Leads after base →
    Leads (statement.stackMap base ++ after) base
  | .empty _, _, _, leads => leads
  | .move _ distance _, base, after, _ => by
      simp only [Statement.stackMap, List.append_assoc]
      exact distance.leads_stackMap base _
  | .write value _, base, after, _ => by
      simp only [Statement.stackMap, List.append_assoc]
      exact value.leads_stackMap base _
  | .goto _ _, base, after, _ => leads_cons base after
  | .ifThen condition _ _, base, after, _ => by
      simp only [Statement.stackMap, List.append_assoc]
      exact condition.leads_stackMap base _
  | .ifElse condition _ _ _, base, after, _ => by
      simp only [Statement.stackMap, List.append_assoc]
      exact condition.leads_stackMap base _
  | .whileLoop condition _ _, base, after, _ => by
      simp only [Statement.stackMap, List.append_assoc]
      exact condition.leads_stackMap base _
  | .halt _, base, after, _ => leads_cons base after

theorem Block.leads_stackMap : (block : Block) → (base : List ValueType) →
    (after : List (List ValueType)) → Leads after base → Leads (block.stackMap base ++ after) base
  | .mk statements _, base, after, leads => Statement.leads_stackMapOf statements base after leads

theorem Statement.leads_stackMapOf : (statements : List Statement) → (base : List ValueType) →
    (after : List (List ValueType)) → Leads after base →
    Leads (Statement.stackMapOf base statements ++ after) base
  | [], _, _, leads => leads
  | first :: others, base, after, leads => by
      simp only [Statement.stackMapOf, List.append_assoc]
      exact Statement.leads_stackMap first base _
        (Statement.leads_stackMapOf others base after leads)

end

section Branches

variable {defined : String → Prop} {condition : Expression} {base : List ValueType}
  {before after : List (List ValueType)} {line : Nat}

theorem covers_ifThen {body : Block} (test : HasType condition .boolean) (leads : Leads after base)
    (covered : ∀ before, Covers defined before body.code.instructions (body.stackMap base) after) :
    Covers defined before (Statement.ifThen condition body line).code.instructions
      ((Statement.ifThen condition body line).stackMap base) after := by
  have enough := (covered []).length
  rw [Statement.instructions_ifThen]
  simp only [Statement.stackMap, List.cons_append, List.nil_append]
  refine .append (test.covers (leads_cons _ _))
    (.cons (.negate (enters_next (leads_cons _ _)))
      (.cons (.jumpIf (enters_next ?_) (jumpTarget_forward _ _) ?_) (covered _)))
  · exact body.leads_stackMap base after leads
  · exact enters_beyond leads rfl (by simpa using enough)

theorem covers_ifElse {thenBody elseBody : Block} (test : HasType condition .boolean)
    (leads : Leads after base)
    (coveredThen : ∀ before, Covers defined before thenBody.code.instructions
      (thenBody.stackMap (.boolean :: base))
      ((.boolean :: base) :: (elseBody.stackMap base ++ after)))
    (coveredElse : ∀ before,
      Covers defined before elseBody.code.instructions (elseBody.stackMap base) after) :
    Covers defined before (Statement.ifElse condition thenBody elseBody line).code.instructions
      ((Statement.ifElse condition thenBody elseBody line).stackMap base) after := by
  have enoughThen := (coveredThen []).length
  have enoughElse := (coveredElse []).length
  rw [Statement.instructions_ifElse]
  simp only [Statement.stackMap, List.cons_append, List.nil_append]
  refine .append (test.covers (leads_cons _ _))
    (.cons (.duplicate (enters_next (leads_cons _ _)))
      (.cons (.negate (enters_next (leads_cons _ _)))
        (.cons (.jumpIf (enters_next ?_) (jumpTarget_forward _ _) ?_)
          (.append (coveredThen _)
            (.cons (.jumpIf (enters_next ?_) (jumpTarget_forward _ _) ?_) (coveredElse _))))))
  · rw [List.append_assoc, List.cons_append]
    exact thenBody.leads_stackMap _ _ (leads_cons _ _)
  · exact enters_beyond (leads_cons _ (elseBody.stackMap base ++ after))
      (List.append_assoc _ _ _) (by simpa using enoughThen)
  · exact elseBody.leads_stackMap base after leads
  · exact enters_beyond leads rfl (by simpa using enoughElse)

theorem covers_whileLoop {body : Block} (test : HasType condition .boolean)
    (leads : Leads after base)
    (covered : ∀ before,
      Covers defined before body.code.instructions (body.stackMap base) (base :: after)) :
    Covers defined before (Statement.whileLoop condition body line).code.instructions
      ((Statement.whileLoop condition body line).stackMap base) after := by
  have enough := (covered []).length
  have testCovered : Covers defined before condition.code.instructions
      (condition.stackMap base)
      ((.boolean :: base) :: (.boolean :: base) :: (body.stackMap base ++ base :: after)) :=
    test.covers (leads_cons _ _)
  have testEnough := testCovered.length
  rw [Code.length_instructions] at enough testEnough
  rw [Statement.instructions_whileLoop]
  simp only [Statement.stackMap, List.cons_append, List.nil_append]
  refine .append (by simpa using testCovered)
    (.cons (.negate (enters_next (leads_cons _ _)))
      (.cons (.jumpIf (enters_next ?_) (jumpTarget_forward _ _) ?_)
        (.append (covered _) (.single (.jump (jumpTarget_backward ?_ ?_) ?_)))))
  · rw [List.append_assoc]
    exact body.leads_stackMap base _ (leads_cons _ _)
  · exact enters_beyond leads rfl (by simp [enough])
  · omega
  · simp only [List.length_append, List.length_cons, List.length_nil]
    omega
  · have whole (rest : List (List ValueType)) :
        before ++ condition.stackMap base ++ [.boolean :: base] ++ [.boolean :: base] ++
            body.stackMap base ++ rest =
          before ++ (condition.stackMap base ++ ((.boolean :: base) :: (.boolean :: base) ::
            (body.stackMap base ++ rest))) := by simp
    rw [whole]
    apply enters_of_leads (condition.leads_stackMap base _)
    simp only [List.length_append, List.length_cons, List.length_nil]
    omega

end Branches

mutual

/-- Code of a well-typed statement whose jumps all lead to defined labels agrees with its map,
wherever it stands and whatever is on the stack in front of it. -/
theorem Statement.covers {defined : String → Prop} : (statement : Statement) →
    statement.WellTyped → (∀ name ∈ statement.gotos, defined name) → (base : List ValueType) →
    (before after : List (List ValueType)) → Leads after base →
    Covers defined before statement.code.instructions (statement.stackMap base) after
  | .empty _, _, _, _, _, _, _ => .nil
  | .move _ _ _, typed, _, _, _, _, leads => by
      simp only [Statement.code, Statement.stackMap, Code.instructions_append]
      exact .append (HasType.covers typed (leads_cons _ _)) (.single (.move (enters_next leads)))
  | .write _ _, typed, _, _, _, _, leads => by
      simp only [Statement.code, Statement.stackMap, Code.instructions_append]
      exact .append (HasType.covers typed (leads_cons _ _)) (.single (.write (enters_next leads)))
  | .goto label _, _, resolved, _, _, _, _ =>
      .single (.call (resolved label (by simp [Statement.gotos])))
  | .ifThen _ body _, ⟨test, inside⟩, resolved, base, _, after, leads =>
      covers_ifThen test leads fun before => Block.covers body inside resolved base before after leads
  | .ifElse _ thenBody elseBody _, ⟨test, first, second⟩, resolved, base, _, after, leads =>
      covers_ifElse test leads
        (fun before => Block.covers thenBody first
          (fun name member => resolved name (List.mem_append_left _ member)) _ before _
          (leads_cons _ _))
        (fun before => Block.covers elseBody second
          (fun name member => resolved name (List.mem_append_right _ member)) base before after
          leads)
  | .whileLoop _ body _, ⟨test, inside⟩, resolved, base, _, _, leads =>
      covers_whileLoop test leads fun before =>
        Block.covers body inside resolved base before _ (leads_cons _ _)
  | .halt _, _, _, _, _, _, _ => .single .halt

theorem Block.covers {defined : String → Prop} : (block : Block) → block.WellTyped →
    (∀ name ∈ block.gotos, defined name) → (base : List ValueType) →
    (before after : List (List ValueType)) → Leads after base →
    Covers defined before block.code.instructions (block.stackMap base) after
  | .mk statements _, typed, resolved, base, before, after, leads =>
      Statement.coversAll statements typed resolved base before after leads

theorem Statement.coversAll {defined : String → Prop} : (statements : List Statement) →
    Statement.AllWellTyped statements → (∀ name ∈ Statement.gotosOf statements, defined name) →
    (base : List ValueType) → (before after : List (List ValueType)) → Leads after base →
    Covers defined before (Statement.codeOf statements).instructions
      (Statement.stackMapOf base statements) after
  | [], _, _, _, _, _, _ => .nil
  | first :: others, ⟨typed, rest⟩, resolved, base, before, after, leads => by
      simp only [Statement.gotosOf, List.mem_append, or_imp, forall_and] at resolved
      simp only [Statement.codeOf, Statement.stackMapOf, Code.instructions_append]
      exact .append
        (Statement.covers first typed resolved.1 base before _
          (Statement.leads_stackMapOf others base after leads))
        (Statement.coversAll others rest resolved.2 base _ after leads)

end

end TapeMachine
