import TapeMachine.Proofs.Code.Segment

/-!
Contract: the places of statements in lowered code.

Owns: the places of all statements, at any depth, the instructions that belong to a statement
itself, what all statements of a program inherit, and the calls of a sequence.

Does not own: where jumps lead; `Proofs.Code.Jump` does.
-/

namespace TapeMachine

/-! ## Statements and their places -/

/-- A statement, and the index at which its instructions begin. -/
structure Site where
  start : Nat
  statement : Statement

namespace Site

/-- The index behind the instructions of the statement. -/
def finish (site : Site) : Nat :=
  site.start + site.statement.code.length

def Spans (site : Site) (index : Nat) : Prop :=
  site.start ≤ index ∧ index < site.finish

end Site

mutual

/-- The statements inside of a statement, at any depth, if its instructions begin at an index. -/
def Statement.sitesInside (start : Nat) : Statement → List Site
  | .ifThen condition body _ => body.sites (start + condition.code.length + 2)
  | .ifElse condition thenBody elseBody _ =>
      let opening := start + condition.code.length + 3
      thenBody.sites opening ++ elseBody.sites (opening + thenBody.code.length + 1)
  | .whileLoop condition body _ => body.sites (start + condition.code.length + 2)
  | _ => []

def Block.sites (start : Nat) : Block → List Site
  | .mk statements _ => Statement.sitesOf start statements

/-- All of some statements, at any depth, if their instructions begin at an index. -/
def Statement.sitesOf (start : Nat) : List Statement → List Site
  | [] => []
  | first :: others =>
      ⟨start, first⟩ ::
        (first.sitesInside start ++ Statement.sitesOf (start + first.code.length) others)

end

/-- A statement whose instructions begin at an index, and the statements inside of it. -/
def Statement.sites (start : Nat) (statement : Statement) : List Site :=
  ⟨start, statement⟩ :: statement.sitesInside start

theorem Statement.sitesOf_cons (start : Nat) (first : Statement) (others : List Statement) :
    Statement.sitesOf start (first :: others) =
      first.sites start ++ Statement.sitesOf (start + first.code.length) others := rfl

/-- The statements that stand directly inside of a statement. -/
def Statement.children : Statement → List Statement
  | .ifThen _ body _ => body.statements
  | .ifElse _ thenBody elseBody _ => thenBody.statements ++ elseBody.statements
  | .whileLoop _ body _ => body.statements
  | _ => []

/-- What statements with a property hand on to the statements directly inside of them. -/
def Hereditary (property : Statement → Prop) : Prop :=
  ∀ statement, property statement → ∀ child ∈ statement.children, property child

mutual

/-- What statements hand on to the statements directly inside of them holds at any depth. -/
theorem Statement.inherited {property : Statement → Prop} (hereditary : Hereditary property) :
    (statement : Statement) → property statement → (start : Nat) →
    ∀ site ∈ statement.sitesInside start, property site.statement
  | .ifThen condition body line, holds, _, site, member =>
      Block.inherited hereditary body (hereditary (.ifThen condition body line) holds) _ site member
  | .ifElse condition thenBody elseBody line, holds, start, site, member => by
      have parts := hereditary (.ifElse condition thenBody elseBody line) holds
      simp only [Statement.children, List.mem_append, or_imp, forall_and] at parts
      exact (List.mem_append.mp member).elim
        (Block.inherited hereditary thenBody parts.1 _ site)
        (Block.inherited hereditary elseBody parts.2 _ site)
  | .whileLoop condition body line, holds, _, site, member =>
      Block.inherited hereditary body (hereditary (.whileLoop condition body line) holds) _ site
        member
  | .empty _, _, _, _, member | .move .., _, _, _, member | .write .., _, _, _, member
  | .goto .., _, _, _, member | .halt _, _, _, _, member => by
      simp [Statement.sitesInside] at member

theorem Block.inherited {property : Statement → Prop} (hereditary : Hereditary property) :
    (block : Block) → (∀ entry ∈ block.statements, property entry) → (start : Nat) →
    ∀ site ∈ block.sites start, property site.statement
  | .mk statements _, all, start, site, member =>
      Statement.inheritedAll hereditary statements all start site member

theorem Statement.inheritedAll {property : Statement → Prop} (hereditary : Hereditary property) :
    (statements : List Statement) → (∀ entry ∈ statements, property entry) → (start : Nat) →
    ∀ site ∈ Statement.sitesOf start statements, property site.statement
  | [], _, _, _, member => by simp [Statement.sitesOf] at member
  | first :: others, all, start, site, member => by
      obtain ⟨own, rest⟩ := List.forall_mem_cons.mp all
      rcases List.mem_cons.mp member with rfl | deeper
      · exact own
      · exact (List.mem_append.mp deeper).elim (Statement.inherited hereditary first own start site)
          (Statement.inheritedAll hereditary others rest _ site)

end

theorem Statement.hereditary_wellTyped : Hereditary Statement.WellTyped := by
  have inside {body : Block} (typed : body.WellTyped) :
      ∀ entry ∈ body.statements, entry.WellTyped :=
    Statement.allWellTyped_iff.mp (Block.allWellTyped_iff.mp typed)
  intro statement typed child member
  cases statement with
  | ifThen condition body line => exact inside typed.2 child member
  | ifElse condition thenBody elseBody line =>
      exact (List.mem_append.mp member).elim (inside typed.2.1 child) (inside typed.2.2 child)
  | whileLoop condition body line => exact inside typed.2 child member
  | _ => simp [Statement.children] at member

/-- Statements that jump to labels among some hand this on. -/
theorem Statement.hereditary_gotos (names : List String) :
    Hereditary fun statement => statement.gotos ⊆ names := by
  have inside {body : Block} (among : body.gotos ⊆ names) :
      ∀ entry ∈ body.statements, entry.gotos ⊆ names := by
    intro entry member name jumps
    apply among
    rw [body.gotos_eq]
    exact Statement.mem_gotosOf.mpr ⟨entry, member, jumps⟩
  intro statement among child member
  cases statement with
  | ifThen condition body line => exact inside among child member
  | ifElse condition thenBody elseBody line =>
      obtain ⟨first, second⟩ := List.append_subset.mp among
      exact (List.mem_append.mp member).elim (inside first child) (inside second child)
  | whileLoop condition body line => exact inside among child member
  | _ => simp [Statement.children] at member

/-! ## The code at a place -/

/-- Code that begins at an index has the code of a statement as one of its pieces. -/
def Site.CutFrom (site : Site) (start : Nat) (code : List Instruction) : Prop :=
  ∃ before after, code = before ++ (site.statement.code.instructions ++ after) ∧
    site.start = start + before.length

namespace Site.CutFrom

variable {site : Site} {start : Nat} {code : List Instruction}

theorem left (cut : site.CutFrom start code) (after : List Instruction) :
    site.CutFrom start (code ++ after) := by
  obtain ⟨before, rest, rfl, place⟩ := cut
  exact ⟨before, rest ++ after, by simp, place⟩

theorem right {before : List Instruction} (cut : site.CutFrom (start + before.length) code) :
    site.CutFrom start (before ++ code) := by
  obtain ⟨front, rest, rfl, place⟩ := cut
  exact ⟨before ++ front, rest, by simp, by simp [place, Nat.add_assoc]⟩

theorem cons {instruction : Instruction} (cut : site.CutFrom (start + 1) code) :
    site.CutFrom start (instruction :: code) :=
  show site.CutFrom start ([instruction] ++ code) from right cut

theorem contains {whole : Array Instruction} (cut : site.CutFrom start code)
    (here : Contains whole start code) :
    Contains whole site.start site.statement.code.instructions := by
  obtain ⟨before, after, rfl, place⟩ := cut
  rw [place]
  exact here.right.left

theorem within (cut : site.CutFrom start code) :
    start ≤ site.start ∧ site.finish ≤ start + code.length := by
  obtain ⟨before, after, rfl, place⟩ := cut
  simp only [Site.finish, place, List.length_append, Code.length_instructions]
  omega

end Site.CutFrom

mutual

theorem Statement.cut : (statement : Statement) → (start : Nat) →
    ∀ site ∈ statement.sitesInside start, site.CutFrom start statement.code.instructions
  | .ifThen condition body line, start, site, member => by
      rw [Statement.instructions_ifThen]
      refine .right (.cons (.cons ?_))
      rw [Code.length_instructions]
      exact Block.cut body _ site member
  | .ifElse condition thenBody elseBody line, start, site, member => by
      rw [Statement.instructions_ifElse]
      refine .right (.cons (.cons (.cons ?_)))
      rw [Code.length_instructions]
      rcases List.mem_append.mp member with first | second
      · exact (Block.cut thenBody _ site first).left _
      · refine .right (.cons ?_)
        rw [Code.length_instructions]
        exact Block.cut elseBody _ site second
  | .whileLoop condition body line, start, site, member => by
      rw [Statement.instructions_whileLoop]
      refine .right (.cons (.cons (.left ?_ _)))
      rw [Code.length_instructions]
      exact Block.cut body _ site member
  | .empty _, _, _, member | .move .., _, _, member | .write .., _, _, member
  | .goto .., _, _, member | .halt _, _, _, member => by
      simp [Statement.sitesInside] at member

theorem Block.cut : (block : Block) → (start : Nat) →
    ∀ site ∈ block.sites start, site.CutFrom start block.code.instructions
  | .mk statements _, start, site, member => Statement.cutOf statements start site member

theorem Statement.cutOf : (statements : List Statement) → (start : Nat) →
    ∀ site ∈ Statement.sitesOf start statements,
      site.CutFrom start (Statement.codeOf statements).instructions
  | [], _, _, member => by simp [Statement.sitesOf] at member
  | first :: others, start, site, member => by
      rw [Statement.codeOf, Code.instructions_append]
      rcases List.mem_cons.mp member with rfl | deeper
      · exact ⟨[], _, rfl, rfl⟩
      · rcases List.mem_append.mp deeper with inside | behind
        · exact (Statement.cut first start site inside).left _
        · refine .right ?_
          rw [Code.length_instructions]
          exact Statement.cutOf others _ site behind

end

/-! ## Properties of all instructions -/

/-- From an index on, every instruction of a piece has a property at its index. -/
def Everywhere (property : Nat → Instruction → Prop) (index : Nat) (piece : List Instruction) :
    Prop :=
  ∀ offset instruction, piece[offset]? = some instruction → property (index + offset) instruction

namespace Everywhere

variable {property weaker : Nat → Instruction → Prop} {index : Nat}

theorem nil : Everywhere property index [] := by
  simp [Everywhere]

theorem append {first second : List Instruction} (head : Everywhere property index first)
    (tail : Everywhere property (index + first.length) second) :
    Everywhere property index (first ++ second) := by
  intro offset instruction found
  by_cases inside : offset < first.length
  · rw [List.getElem?_append_left inside] at found
    exact head offset instruction found
  · rw [List.getElem?_append_right (Nat.le_of_not_lt inside)] at found
    have holds := tail _ instruction found
    rwa [show index + first.length + (offset - first.length) = index + offset by omega] at holds

theorem cons {instruction : Instruction} {rest : List Instruction}
    (holds : property index instruction) (tail : Everywhere property (index + 1) rest) :
    Everywhere property index (instruction :: rest) := by
  show Everywhere property index ([instruction] ++ rest)
  refine append ?_ tail
  intro offset other found
  cases offset with
  | zero =>
      obtain rfl : instruction = other := by simpa using found
      exact holds
  | succ offset => simp at found

theorem mono {piece : List Instruction} (holds : Everywhere property index piece)
    (implies : ∀ index instruction, property index instruction → weaker index instruction) :
    Everywhere weaker index piece :=
  fun offset instruction found => implies _ _ (holds offset instruction found)

end Everywhere

/-! ## The instructions of a statement itself -/

/-- Whether an instruction can be part of an expression. -/
def Instruction.isOperand : Instruction → Bool
  | .push _ => true
  | .compare _ => true
  | .read => true
  | _ => false

theorem Expression.everywhere {property : Nat → Instruction → Prop}
    (operands : ∀ index instruction, instruction.isOperand = true → property index instruction)
    (expression : Expression) (index : Nat) :
    Everywhere property index expression.code.instructions := by
  induction expression generalizing index with
  | binary op left right line leftHypothesis rightHypothesis =>
      simp only [Expression.code, Code.instructions_append]
      exact .append (.append (leftHypothesis _) (rightHypothesis _)) (.cons (operands _ _ rfl) .nil)
  | negation operand line inductionHypothesis =>
      simp only [Expression.code, Code.instructions_append]
      exact .append (inductionHypothesis _) (.cons (operands _ _ rfl) .nil)
  | nested inner line inductionHypothesis => exact inductionHypothesis _
  | read line => exact .cons (operands _ _ rfl) .nil
  | literal value line => exact .cons (operands _ _ rfl) .nil

/-- The instructions of a statement that belong neither to an expression nor to a statement inside
of it, each with its index. -/
def Site.own (site : Site) : List (Nat × Instruction) :=
  match site.statement with
  | .empty _ => []
  | .move direction distance _ => [(site.start + distance.code.length, .move direction)]
  | .write value _ => [(site.start + value.code.length, .write)]
  | .goto label _ => [(site.start, .call label)]
  | .ifThen condition body _ =>
      let test := site.start + condition.code.length
      [(test, .compare .negation), (test + 1, .jumpIf body.code.length)]
  | .ifElse condition thenBody elseBody _ =>
      let test := site.start + condition.code.length
      [(test, .duplicate), (test + 1, .compare .negation), (test + 2, .jumpIf thenBody.code.length),
        (test + 3 + thenBody.code.length, .jumpIf elseBody.code.length)]
  | .whileLoop condition body _ =>
      let test := site.start + condition.code.length
      [(test, .compare .negation), (test + 1, .jumpIf (body.code.length + 1 : Nat)),
        (test + 2 + body.code.length, .jump (-(body.code.length + 2 + condition.code.length : Nat)))]
  | .halt _ => [(site.start, .halt)]

/-- An instruction is part of an expression, or one of some statements has it as its own. -/
def OwnedBy (sites : List Site) (index : Nat) (instruction : Instruction) : Prop :=
  instruction.isOperand = true ∨ ∃ site ∈ sites, (index, instruction) ∈ site.own

theorem OwnedBy.mono {sites more : List Site} (within : sites ⊆ more) (index : Nat)
    (instruction : Instruction) (owned : OwnedBy sites index instruction) :
    OwnedBy more index instruction := by
  rcases owned with operand | ⟨site, member, own⟩
  · exact .inl operand
  · exact .inr ⟨site, within member, own⟩

theorem OwnedBy.self {site : Site} {others : List Site} {index : Nat} {instruction : Instruction}
    (own : (index, instruction) ∈ site.own) : OwnedBy (site :: others) index instruction :=
  .inr ⟨site, List.mem_cons_self, own⟩

theorem Expression.owned {sites : List Site} (expression : Expression) (index : Nat) :
    Everywhere (OwnedBy sites) index expression.code.instructions :=
  expression.everywhere (fun _ _ operand => .inl operand) index

mutual

/-- Every instruction of a statement is part of an expression, or it is the statement's own or that
of a statement inside of it. -/
theorem Statement.owned : (statement : Statement) → (start : Nat) →
    Everywhere (OwnedBy (statement.sites start)) start statement.code.instructions
  | .empty _, _ => .nil
  | .move _ distance _, start => by
      simp only [Statement.code, Code.instructions_append]
      exact .append (distance.owned start) (.cons (.self (by simp [Site.own])) .nil)
  | .write value _, start => by
      simp only [Statement.code, Code.instructions_append]
      exact .append (value.owned start) (.cons (.self (by simp [Site.own])) .nil)
  | .goto _ _, _ => .cons (.self (by simp [Site.own])) .nil
  | .ifThen condition body line, start => by
      rw [Statement.instructions_ifThen]
      refine .append (condition.owned start) (.cons (.inl rfl) (.cons (.self ?_) ?_))
      · simp [Site.own]
      · rw [Code.length_instructions]
        exact (Block.owned body _).mono (OwnedBy.mono (List.subset_cons_self _ _))
  | .ifElse condition thenBody elseBody line, start => by
      rw [Statement.instructions_ifElse]
      refine .append (condition.owned start) (.cons (.self ?_) (.cons (.inl rfl) (.cons (.self ?_)
        (.append ?_ (.cons (.self ?_) ?_)))))
      · simp [Site.own]
      · simp [Site.own]
      · rw [Code.length_instructions]
        exact (Block.owned thenBody _).mono (OwnedBy.mono fun site member =>
          List.mem_cons_of_mem _ (List.mem_append_left _ member))
      · simp [Site.own]
      · rw [Code.length_instructions, Code.length_instructions]
        exact (Block.owned elseBody _).mono (OwnedBy.mono fun site member =>
          List.mem_cons_of_mem _ (List.mem_append_right _ member))
  | .whileLoop condition body line, start => by
      rw [Statement.instructions_whileLoop]
      refine .append (condition.owned start) (.cons (.inl rfl) (.cons (.self ?_)
        (.append ?_ (.cons (.self ?_) .nil))))
      · simp [Site.own]
      · rw [Code.length_instructions]
        exact (Block.owned body _).mono (OwnedBy.mono (List.subset_cons_self _ _))
      · simp [Site.own]
  | .halt _, _ => .cons (.self (by simp [Site.own])) .nil

theorem Block.owned : (block : Block) → (start : Nat) →
    Everywhere (OwnedBy (block.sites start)) start block.code.instructions
  | .mk statements _, start => Statement.ownedOf statements start

theorem Statement.ownedOf : (statements : List Statement) → (start : Nat) →
    Everywhere (OwnedBy (Statement.sitesOf start statements)) start
      (Statement.codeOf statements).instructions
  | [], _ => .nil
  | first :: others, start => by
      rw [Statement.codeOf, Code.instructions_append, Statement.sitesOf_cons]
      refine .append ((Statement.owned first start).mono
        (OwnedBy.mono (List.subset_append_left _ _))) ?_
      rw [Code.length_instructions]
      exact (Statement.ownedOf others _).mono (OwnedBy.mono (List.subset_append_right _ _))

end

/-- Where the code of a statement stands, its own instructions stand at their indices. -/
theorem Site.found_of_own {site : Site} {code : Array Instruction}
    (here : Contains code site.start site.statement.code.instructions) {index : Nat}
    {instruction : Instruction} (own : (index, instruction) ∈ site.own) :
    code[index]? = some instruction := by
  rcases site with ⟨start, statement⟩
  cases statement with
  | empty line => simp [Site.own] at own
  | move direction distance line =>
      simp only [Statement.code, Code.instructions_append] at here
      obtain ⟨rfl, rfl⟩ : index = start + distance.code.length ∧ instruction = .move direction := by
        simpa [Site.own] using own
      simpa using here.right.head
  | write value line =>
      simp only [Statement.code, Code.instructions_append] at here
      obtain ⟨rfl, rfl⟩ : index = start + value.code.length ∧ instruction = .write := by
        simpa [Site.own] using own
      simpa using here.right.head
  | goto label line =>
      obtain ⟨rfl, rfl⟩ : index = start ∧ instruction = .call label := by
        simpa [Site.own] using own
      exact here.head
  | ifThen condition body line =>
      rw [Statement.instructions_ifThen] at here
      have tests := here.right
      rw [Code.length_instructions] at tests
      simp only [Site.own, List.mem_cons, Prod.mk.injEq, List.not_mem_nil, or_false] at own
      rcases own with ⟨rfl, rfl⟩ | ⟨rfl, rfl⟩
      · exact tests.head
      · exact tests.tail.head
  | ifElse condition thenBody elseBody line =>
      rw [Statement.instructions_ifElse] at here
      have tests := here.right
      rw [Code.length_instructions] at tests
      have second := tests.tail.tail.tail.right
      rw [Code.length_instructions] at second
      simp only [Site.own, List.mem_cons, Prod.mk.injEq, List.not_mem_nil, or_false] at own
      rcases own with ⟨rfl, rfl⟩ | ⟨rfl, rfl⟩ | ⟨rfl, rfl⟩ | ⟨rfl, rfl⟩
      · exact tests.head
      · exact tests.tail.head
      · exact tests.tail.tail.head
      · exact second.head
  | whileLoop condition body line =>
      rw [Statement.instructions_whileLoop] at here
      have tests := here.right
      rw [Code.length_instructions] at tests
      have back := tests.tail.tail.right
      rw [Code.length_instructions] at back
      simp only [Site.own, List.mem_cons, Prod.mk.injEq, List.not_mem_nil, or_false] at own
      rcases own with ⟨rfl, rfl⟩ | ⟨rfl, rfl⟩ | ⟨rfl, rfl⟩
      · exact tests.head
      · exact tests.tail.head
      · exact back.head
  | halt line =>
      obtain ⟨rfl, rfl⟩ : index = start ∧ instruction = .halt := by
        simpa [Site.own] using own
      exact here.head

/-! ## Sequences -/

namespace Statement

variable (statements : List Statement)

/-- What some statements are lowered to, one behind the other. -/
def sequence : Array Instruction :=
  (Sequence.ofCode (codeOf statements)).instructions

variable {statements}

theorem contains_sequence : Contains (sequence statements) 0 (codeOf statements).instructions :=
  Contains.whole (sequence statements)

theorem contains_site {site : Site} (member : site ∈ sitesOf 0 statements) :
    Contains (sequence statements) site.start site.statement.code.instructions :=
  (cutOf statements 0 site member).contains contains_sequence

theorem finish_le_size {site : Site} (member : site ∈ sitesOf 0 statements) :
    site.finish ≤ (sequence statements).size := by
  simpa [sequence, Sequence.ofCode] using (cutOf statements 0 site member).within.2

/-- Every instruction of a sequence is part of an expression or a statement's own. -/
theorem ownedBy_sites {index : Nat} {instruction : Instruction}
    (found : (sequence statements)[index]? = some instruction) :
    OwnedBy (sitesOf 0 statements) index instruction := by
  have listed : (codeOf statements).instructions[index]? = some instruction := by
    simpa [sequence, Sequence.ofCode, Code.instructions] using found
  simpa using ownedOf statements 0 index instruction listed

theorem wellTyped_of_site (typed : AllWellTyped statements) {site : Site}
    (member : site ∈ sitesOf 0 statements) : site.statement.WellTyped :=
  inheritedAll hereditary_wellTyped statements (allWellTyped_iff.mp typed) 0 site member

/-- The labels that a sequence calls are those that its statements jump to. -/
theorem mem_gotosOf_of_call {label : String} (called : .call label ∈ sequence statements) :
    label ∈ gotosOf statements := by
  obtain ⟨index, found⟩ := Array.mem_iff_getElem?.mp called
  rcases ownedBy_sites found with operand | ⟨site, member, own⟩
  · contradiction
  · have among := inheritedAll (hereditary_gotos (gotosOf statements)) statements
      (fun entry present name jumps => mem_gotosOf.mpr ⟨entry, present, jumps⟩) 0 site member
    rcases site with ⟨start, statement⟩
    cases statement with
    | goto other line =>
        obtain rfl := Instruction.call.inj (Prod.mk.inj (List.mem_singleton.mp own)).2
        exact among List.mem_cons_self
    | _ => simp [Site.own] at own

end Statement

theorem Block.instructions_code (block : Block) :
    (Sequence.ofCode block.code).instructions = Statement.sequence block.statements := by
  cases block
  rfl

/-- The sequences of an executable are what the statements of its routines are lowered to. -/
theorem Program.instructions?_main (program : Program) :
    program.executable.instructions? .main = some (Statement.sequence program.statements) :=
  congrArg some (Array.toList_inj.mp program.main_instructions)

theorem Program.instructions?_label (program : Program) (name : String) :
    program.executable.instructions? (.label name) =
      (program.body? name).map fun body => Statement.sequence body.statements := by
  rw [Executable.instructions?, Executable.sequence?, program.labels_get?, Option.map_map]
  exact congrArg (Option.map · _) (funext Block.instructions_code)

end TapeMachine
