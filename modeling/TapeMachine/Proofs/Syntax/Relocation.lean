import TapeMachine.Proofs.Code.Segment

/-!
Contract: the same tokens, errors and trees at other places.

Owns: relocations, which give every line another number and every source another name, their effect
on tokens, errors and trees, and what they leave as it is: the types of expressions and the
instructions that trees are lowered to.
-/

namespace TapeMachine

/-- Another number for every line, and another name for every source. -/
structure Relocation where
  line : Nat → Nat
  source : String → String

namespace Relocation

/-- Everything comes from one source; the lines stay. -/
def inSource (name : String) : Relocation :=
  ⟨id, fun _ => name⟩

/-- Everything stands on one and the same line. -/
def oneLine : Relocation :=
  ⟨fun _ => 0, id⟩

end Relocation

variable (places : Relocation)

/-! ## Tokens and errors -/

def Lexeme.relocate (lexeme : Lexeme) : Lexeme :=
  { lexeme with line := places.line lexeme.line, source := places.source lexeme.source }

def LexError.relocate (error : LexError) : LexError :=
  { error with line := places.line error.line, source := places.source error.source }

def ParseError.relocate (error : ParseError) : ParseError :=
  { error with line := places.line error.line, source := places.source error.source }

/-! ## Trees -/

def Expression.relocate : Expression → Expression
  | .binary op left right line =>
      .binary op left.relocate right.relocate (places.line line)
  | .negation operand line => .negation operand.relocate (places.line line)
  | .nested inner line => .nested inner.relocate (places.line line)
  | .read line => .read (places.line line)
  | .literal value line => .literal value (places.line line)

mutual

def Statement.relocate : Statement → Statement
  | .empty line => .empty (places.line line)
  | .move direction distance line =>
      .move direction (distance.relocate places) (places.line line)
  | .write value line => .write (value.relocate places) (places.line line)
  | .goto label line => .goto label (places.line line)
  | .ifThen condition body line =>
      .ifThen (condition.relocate places) body.relocate (places.line line)
  | .ifElse condition thenBody elseBody line =>
      .ifElse (condition.relocate places) thenBody.relocate elseBody.relocate (places.line line)
  | .whileLoop condition body line =>
      .whileLoop (condition.relocate places) body.relocate (places.line line)
  | .halt line => .halt (places.line line)

def Block.relocate : Block → Block
  | .mk statements line => .mk (Statement.relocateAll statements) (places.line line)

def Statement.relocateAll : List Statement → List Statement
  | [] => []
  | first :: others => first.relocate :: Statement.relocateAll others

end

theorem Statement.relocateAll_eq_map (statements : List Statement) :
    Statement.relocateAll places statements = statements.map (Statement.relocate places) := by
  induction statements with
  | nil => rfl
  | cons first others inductionHypothesis =>
      rw [Statement.relocateAll, inductionHypothesis, List.map_cons]

def LabelDefinition.relocate (definition : LabelDefinition) : LabelDefinition where
  name := definition.name
  body := definition.body.relocate places
  line := places.line definition.line

def Item.relocate : Item → Item
  | .statement entry => .statement (entry.relocate places)
  | .label definition => .label (definition.relocate places)

def Program.relocate (program : Program) : Program :=
  ⟨program.items.map (Item.relocate places)⟩

/-! ## Everything that has places -/

/-- What can be put at other places. -/
class Relocatable (α : Type) where
  relocate : Relocation → α → α

section

variable {α : Type} [Relocatable α]

instance : Relocatable Unit := ⟨fun _ => id⟩

instance : Relocatable Bool := ⟨fun _ => id⟩

instance : Relocatable Lexeme := ⟨Lexeme.relocate⟩

instance : Relocatable Expression := ⟨Expression.relocate⟩

instance : Relocatable Statement := ⟨Statement.relocate⟩

instance : Relocatable Block := ⟨Block.relocate⟩

instance : Relocatable LabelDefinition := ⟨LabelDefinition.relocate⟩

instance : Relocatable Item := ⟨Item.relocate⟩

instance : Relocatable Program := ⟨Program.relocate⟩

instance : Relocatable (Option α) := ⟨fun places => Option.map (Relocatable.relocate places)⟩

instance : Relocatable (List α) := ⟨fun places => List.map (Relocatable.relocate places)⟩

instance : Relocatable (Except ParseError α) where
  relocate places
    | .ok value => .ok (Relocatable.relocate places value)
    | .error error => .error (error.relocate places)

@[simp] theorem Relocatable.relocate_some (value : α) :
    relocate places (some value) = some (relocate places value) := rfl

@[simp] theorem Relocatable.relocate_lexeme (lexeme : Lexeme) :
    relocate places lexeme = lexeme.relocate places := rfl

@[simp] theorem Relocatable.relocate_expression (expression : Expression) :
    relocate places expression = expression.relocate places := rfl

theorem Relocatable.relocate_statements (statements : List Statement) :
    relocate places statements = Statement.relocateAll places statements :=
  (Statement.relocateAll_eq_map places statements).symm

end

/-! ## Types -/

@[simp] theorem Expression.type_relocate (expression : Expression) :
    (expression.relocate places).type = expression.type := by
  induction expression with
  | nested inner line inductionHypothesis => exact inductionHypothesis
  | _ => rfl

/-! ## Lines that stay -/

/-- A relocation under which every line keeps its number. -/
def Relocation.KeepsLines : Prop :=
  ∀ line, places.line line = line

section

variable {places}

theorem Expression.relocate_of_keepsLines (keeps : places.KeepsLines) (expression : Expression) :
    expression.relocate places = expression := by
  induction expression <;> simp_all [Expression.relocate, Relocation.KeepsLines]

mutual

theorem Statement.relocate_of_keepsLines (keeps : places.KeepsLines) : (statement : Statement) →
    statement.relocate places = statement
  | .empty _ | .halt _ | .goto .. => by simp only [Statement.relocate, keeps _]
  | .move _ distance _ => by
      simp only [Statement.relocate, distance.relocate_of_keepsLines keeps, keeps _]
  | .write value _ => by
      simp only [Statement.relocate, value.relocate_of_keepsLines keeps, keeps _]
  | .ifThen condition body _ | .whileLoop condition body _ => by
      simp only [Statement.relocate, condition.relocate_of_keepsLines keeps,
        body.relocate_of_keepsLines keeps, keeps _]
  | .ifElse condition thenBody elseBody _ => by
      simp only [Statement.relocate, condition.relocate_of_keepsLines keeps,
        thenBody.relocate_of_keepsLines keeps, elseBody.relocate_of_keepsLines keeps, keeps _]

theorem Block.relocate_of_keepsLines (keeps : places.KeepsLines) : (block : Block) →
    block.relocate places = block
  | .mk statements _ => by
      simp only [Block.relocate, Statement.relocateAll_of_keepsLines keeps statements, keeps _]

theorem Statement.relocateAll_of_keepsLines (keeps : places.KeepsLines) :
    (statements : List Statement) → Statement.relocateAll places statements = statements
  | [] => rfl
  | first :: others => by
      simp only [Statement.relocateAll, first.relocate_of_keepsLines keeps,
        Statement.relocateAll_of_keepsLines keeps others]

end

theorem Item.relocate_of_keepsLines (keeps : places.KeepsLines) (item : Item) :
    item.relocate places = item := by
  cases item with
  | statement entry => simp only [Item.relocate, entry.relocate_of_keepsLines keeps]
  | label definition =>
      simp only [Item.relocate, LabelDefinition.relocate,
        definition.body.relocate_of_keepsLines keeps, keeps _]

theorem Program.relocate_of_keepsLines (keeps : places.KeepsLines) (program : Program) :
    program.relocate places = program := by
  simp [Program.relocate, funext (Item.relocate_of_keepsLines keeps)]

end

/-! ## Instructions -/

def Placed.relocate (placed : Placed) : Placed :=
  { placed with line := places.line placed.line }

theorem Code.instructions_relocate (code : Code) :
    Code.instructions (code.map (Placed.relocate places)) = code.instructions := by
  simp [Code.instructions, Placed.relocate, Function.comp_def]

/-- Lowering a tree at other lines yields the same instructions at these lines. -/
theorem Expression.code_relocate (expression : Expression) :
    (expression.relocate places).code = expression.code.map (Placed.relocate places) := by
  induction expression <;> simp_all [Expression.relocate, Expression.code, Placed.relocate]

theorem Block.line_relocate (block : Block) :
    (block.relocate places).line = places.line block.line := by
  cases block
  rfl

mutual

theorem Statement.code_relocate : (statement : Statement) →
    (statement.relocate places).code = statement.code.map (Placed.relocate places)
  | .empty _ | .halt _ | .goto .. => rfl
  | .move _ distance _ => by
      simp [Statement.relocate, Statement.code, distance.code_relocate, Placed.relocate]
  | .write value _ => by
      simp [Statement.relocate, Statement.code, value.code_relocate, Placed.relocate]
  | .ifThen condition body _ | .whileLoop condition body _ => by
      simp [Statement.relocate, Statement.code, condition.code_relocate, body.code_relocate,
        Placed.relocate]
  | .ifElse condition thenBody elseBody _ => by
      simp [Statement.relocate, Statement.code, condition.code_relocate, thenBody.code_relocate,
        elseBody.code_relocate, elseBody.line_relocate, Placed.relocate]

theorem Block.code_relocate : (block : Block) →
    (block.relocate places).code = block.code.map (Placed.relocate places)
  | .mk statements _ => by
      simp only [Block.relocate, Block.code, Statement.codeOf_relocateAll statements]

theorem Statement.codeOf_relocateAll : (statements : List Statement) →
    Statement.codeOf (Statement.relocateAll places statements) =
      (Statement.codeOf statements).map (Placed.relocate places)
  | [] => rfl
  | first :: others => by
      simp only [Statement.relocateAll, Statement.codeOf, first.code_relocate,
        Statement.codeOf_relocateAll others, List.map_append]

end

namespace Program

theorem statements_relocate (program : Program) :
    (program.relocate places).statements = program.statements.map (Statement.relocate places) := by
  rcases program with ⟨items⟩
  induction items with
  | nil => rfl
  | cons item others inductionHypothesis =>
      cases item <;> simp_all [relocate, statements, Item.relocate]

theorem body?_relocate (program : Program) (name : String) :
    (program.relocate places).body? name = (program.body? name).map (Block.relocate places) := by
  have labels : (program.relocate places).labels =
      program.labels.map (LabelDefinition.relocate places) := by
    rcases program with ⟨items⟩
    induction items with
    | nil => rfl
    | cons item others inductionHypothesis =>
        cases item <;> simp_all [relocate, Program.labels, Item.relocate]
  have named : (fun definition : LabelDefinition => decide (definition.name = name)) ∘
      LabelDefinition.relocate places = fun definition => decide (definition.name = name) := rfl
  rw [body?, body?, labels, ← List.map_reverse, List.find?_map, named, Option.map_map,
    Option.map_map]
  rfl

theorem main_relocate (program : Program) :
    (program.relocate places).executable.main.instructions =
      program.executable.main.instructions := by
  apply Array.toList_inj.mp
  rw [main_instructions, main_instructions, statements_relocate,
    ← Statement.relocateAll_eq_map, Statement.codeOf_relocateAll, Code.instructions_relocate]

theorem labels_relocate (program : Program) (name : String) :
    ((program.relocate places).executable.labels.get? name).map Sequence.instructions =
      (program.executable.labels.get? name).map Sequence.instructions := by
  rw [labels_get?, labels_get?, body?_relocate]
  cases program.body? name with
  | none => rfl
  | some body =>
      have same := Code.instructions_relocate places body.code
      rw [← body.code_relocate] at same
      exact congrArg (some ∘ List.toArray) same

end Program

end TapeMachine
