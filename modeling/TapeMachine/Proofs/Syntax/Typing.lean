import TapeMachine.Grammar.Expression
import TapeMachine.Proofs.Names.Scope

/-!
Contract: what a tree has to satisfy beyond its shape.

Owns: the typing of expressions and statements, the labels that a statement jumps to and where they
have to be defined, and the range of integer tokens.

Does not own: which trees a text has; `Proofs.Syntax.Phrase` does.
-/

namespace TapeMachine

/-! ## Expressions -/

/-- The type of an expression whose operands all have the types that their operators need. -/
inductive HasType : Expression → ValueType → Prop where
  | comparison {op : BinaryOp} {left right : Expression} {operands : ValueType} {line : Nat}
      (plain : op.isLogical = false) (leftType : HasType left operands)
      (rightType : HasType right operands) : HasType (.binary op left right line) .boolean
  | logical {op : BinaryOp} {left right : Expression} {line : Nat} (logical : op.isLogical = true)
      (leftType : HasType left .boolean) (rightType : HasType right .boolean) :
      HasType (.binary op left right line) .boolean
  | negation {operand : Expression} {line : Nat} (operandType : HasType operand .boolean) :
      HasType (.negation operand line) .boolean
  | nested {inner : Expression} {type : ValueType} {line : Nat} (innerType : HasType inner type) :
      HasType (.nested inner line) type
  | read {line : Nat} : HasType (.read line) .character
  | literal {value : Value} {line : Nat} : HasType (.literal value line) value.type

/-- An expression has one type at most: the one that follows from its shape. -/
theorem HasType.type_eq {expression : Expression} {type : ValueType}
    (typed : HasType expression type) : expression.type = type := by
  induction typed with
  | comparison => rfl
  | logical => rfl
  | negation => rfl
  | nested _ inductionHypothesis => exact inductionHypothesis
  | read => rfl
  | literal => rfl

def Expression.parts : Expression → List Expression
  | .binary op left right line => .binary op left right line :: (left.parts ++ right.parts)
  | .negation operand line => .negation operand line :: operand.parts
  | .nested inner line => .nested inner line :: inner.parts
  | .read line => [.read line]
  | .literal value line => [.literal value line]

theorem HasType.of_part {expression : Expression} {type : ValueType}
    (typed : HasType expression type) {part : Expression} (member : part ∈ expression.parts) :
    HasType part part.type := by
  induction typed with
  | comparison plain leftType rightType leftHypothesis rightHypothesis =>
      rcases List.mem_cons.mp member with rfl | inside
      · exact .comparison plain leftType rightType
      · exact (List.mem_append.mp inside).elim leftHypothesis rightHypothesis
  | logical logical leftType rightType leftHypothesis rightHypothesis =>
      rcases List.mem_cons.mp member with rfl | inside
      · exact .logical logical leftType rightType
      · exact (List.mem_append.mp inside).elim leftHypothesis rightHypothesis
  | negation operandType inductionHypothesis =>
      rcases List.mem_cons.mp member with rfl | inside
      · exact .negation operandType
      · exact inductionHypothesis inside
  | nested innerType inductionHypothesis =>
      rcases List.mem_cons.mp member with rfl | inside
      · exact .nested (innerType.type_eq ▸ innerType)
      · exact inductionHypothesis inside
  | read =>
      obtain rfl := List.mem_singleton.mp member
      exact .read
  | literal =>
      obtain rfl := List.mem_singleton.mp member
      exact .literal

/-! ## Statements -/

mutual

/-- Every expression of a statement has the type that its place needs. -/
def Statement.WellTyped : Statement → Prop
  | .empty _ => True
  | .move _ distance _ => HasType distance .number
  | .write value _ => HasType value .character
  | .goto _ _ => True
  | .ifThen condition body _ => HasType condition .boolean ∧ body.WellTyped
  | .ifElse condition thenBody elseBody _ =>
      HasType condition .boolean ∧ thenBody.WellTyped ∧ elseBody.WellTyped
  | .whileLoop condition body _ => HasType condition .boolean ∧ body.WellTyped
  | .halt _ => True

def Block.WellTyped : Block → Prop
  | .mk statements _ => Statement.AllWellTyped statements

def Statement.AllWellTyped : List Statement → Prop
  | [] => True
  | first :: others => first.WellTyped ∧ Statement.AllWellTyped others

end

mutual

/-- The labels that a statement jumps to, at any depth. -/
def Statement.gotos : Statement → List String
  | .empty _ => []
  | .move _ _ _ => []
  | .write _ _ => []
  | .goto label _ => [label]
  | .ifThen _ body _ => body.gotos
  | .ifElse _ thenBody elseBody _ => thenBody.gotos ++ elseBody.gotos
  | .whileLoop _ body _ => body.gotos
  | .halt _ => []

def Block.gotos : Block → List String
  | .mk statements _ => Statement.gotosOf statements

def Statement.gotosOf : List Statement → List String
  | [] => []
  | first :: others => first.gotos ++ Statement.gotosOf others

end

mutual

/-- The expressions of a statement with all their parts, at any depth. -/
def Statement.expressions : Statement → List Expression
  | .empty _ => []
  | .move _ distance _ => distance.parts
  | .write value _ => value.parts
  | .goto _ _ => []
  | .ifThen condition body _ => condition.parts ++ body.expressions
  | .ifElse condition thenBody elseBody _ =>
      condition.parts ++ (thenBody.expressions ++ elseBody.expressions)
  | .whileLoop condition body _ => condition.parts ++ body.expressions
  | .halt _ => []

def Block.expressions : Block → List Expression
  | .mk statements _ => Statement.expressionsOf statements

def Statement.expressionsOf : List Statement → List Expression
  | [] => []
  | first :: others => first.expressions ++ Statement.expressionsOf others

end

mutual

/-- In a well-typed statement every expression has the type that follows from its shape. -/
theorem Statement.WellTyped.hasType : (statement : Statement) → statement.WellTyped →
    ∀ part ∈ statement.expressions, HasType part part.type
  | .empty _, _ => by simp [Statement.expressions]
  | .move _ _ _, typed => fun _ member => HasType.of_part typed member
  | .write _ _, typed => fun _ member => HasType.of_part typed member
  | .goto _ _, _ => by simp [Statement.expressions]
  | .ifThen _ body _, ⟨condition, inside⟩ => fun part member =>
      (List.mem_append.mp member).elim condition.of_part (Block.WellTyped.hasType body inside part)
  | .ifElse _ thenBody elseBody _, ⟨condition, first, second⟩ => fun part member =>
      (List.mem_append.mp member).elim condition.of_part fun either =>
        (List.mem_append.mp either).elim (Block.WellTyped.hasType thenBody first part)
          (Block.WellTyped.hasType elseBody second part)
  | .whileLoop _ body _, ⟨condition, inside⟩ => fun part member =>
      (List.mem_append.mp member).elim condition.of_part (Block.WellTyped.hasType body inside part)
  | .halt _, _ => by simp [Statement.expressions]

theorem Block.WellTyped.hasType : (block : Block) → block.WellTyped →
    ∀ part ∈ block.expressions, HasType part part.type
  | .mk statements _, typed => Statement.AllWellTyped.hasType statements typed

theorem Statement.AllWellTyped.hasType : (statements : List Statement) →
    Statement.AllWellTyped statements →
    ∀ part ∈ Statement.expressionsOf statements, HasType part part.type
  | [], _ => by simp [Statement.expressionsOf]
  | first :: others, ⟨typed, rest⟩ => fun part member =>
      (List.mem_append.mp member).elim (Statement.WellTyped.hasType first typed part)
        (Statement.AllWellTyped.hasType others rest part)

end

theorem Statement.allWellTyped_iff {statements : List Statement} :
    Statement.AllWellTyped statements ↔ ∀ entry ∈ statements, entry.WellTyped := by
  induction statements with
  | nil => simp [Statement.AllWellTyped]
  | cons first others inductionHypothesis =>
      simp [Statement.AllWellTyped, inductionHypothesis]

theorem Block.allWellTyped_iff {block : Block} :
    block.WellTyped ↔ Statement.AllWellTyped block.statements := by
  cases block
  rfl

theorem Statement.mem_gotosOf {statements : List Statement} {name : String} :
    name ∈ Statement.gotosOf statements ↔ ∃ entry ∈ statements, name ∈ entry.gotos := by
  induction statements with
  | nil => simp [Statement.gotosOf]
  | cons first others inductionHypothesis =>
      simp [Statement.gotosOf, inductionHypothesis]

theorem Block.gotos_eq (block : Block) : block.gotos = Statement.gotosOf block.statements := by
  cases block
  rfl

/-! ## Programs -/

namespace Item

def WellTyped : Item → Prop
  | .statement entry => entry.WellTyped
  | .label definition => definition.body.WellTyped

def gotos : Item → List String
  | .statement entry => entry.gotos
  | .label definition => definition.body.gotos

def expressions : Item → List Expression
  | .statement entry => entry.expressions
  | .label definition => definition.body.expressions

def label? : Item → Option String
  | .statement _ => none
  | .label definition => some definition.name

theorem WellTyped.hasType {item : Item} (typed : item.WellTyped) :
    ∀ part ∈ item.expressions, HasType part part.type := by
  cases item with
  | statement entry => exact Statement.WellTyped.hasType entry typed
  | label definition => exact Block.WellTyped.hasType definition.body typed

end Item

namespace Program

def WellTyped (program : Program) : Prop :=
  ∀ item ∈ program.items, item.WellTyped

/-- Every jump leads to a label that is defined further up or by the very item it stands in. -/
def Resolved (program : Program) : Prop :=
  ∀ before item after, program.items = before ++ item :: after →
    ∀ name ∈ item.gotos, name ∈ (before ++ [item]).filterMap Item.label?

def expressions (program : Program) : List Expression :=
  program.items.flatMap Item.expressions

theorem WellTyped.hasType {program : Program} (typed : program.WellTyped) :
    ∀ part ∈ program.expressions, HasType part part.type := by
  intro part member
  obtain ⟨item, present, inside⟩ := List.mem_flatMap.mp member
  exact (typed item present).hasType part inside

end Program

/-! ## Labels and ranges along a text -/

/-- The labels that are visible behind an item. -/
def Item.declare (labels : Environment (Option Block)) : Item → Environment (Option Block)
  | .statement _ => labels
  | .label definition =>
      (labels.define definition.name none).define definition.name (some definition.body)

theorem Item.contains_declare (labels : Environment (Option Block)) (item : Item) (name : String) :
    (item.declare labels).contains name = true ↔
      labels.contains name = true ∨ item.label? = some name := by
  cases item with
  | statement entry => simp [declare, label?]
  | label definition =>
      rw [declare, Environment.contains_define, Environment.contains_define]
      by_cases own : name = definition.name
      · simp [own, label?]
      · simp [own, label?, Ne.symm own]

/-- Every jump of some items leads to a visible label: one of those that are visible in front of
the items, or one that the items define up to there. -/
def Item.Resolve (visible : String → Prop) : List Item → Prop
  | [] => True
  | item :: others =>
      (∀ name ∈ item.gotos, visible name ∨ item.label? = some name) ∧
        Item.Resolve (fun name => visible name ∨ item.label? = some name) others

theorem Item.mem_labels_cons {name : String} {first : Item} {others : List Item} :
    name ∈ (first :: others).filterMap Item.label? ↔
      first.label? = some name ∨ name ∈ others.filterMap Item.label? := by
  simp only [List.mem_filterMap, List.mem_cons, or_and_right, exists_or, exists_eq_left]

theorem Item.resolve_iff {visible : String → Prop} {items : List Item} :
    Item.Resolve visible items ↔
      ∀ before item after, items = before ++ item :: after →
        ∀ name ∈ item.gotos, visible name ∨ name ∈ (before ++ [item]).filterMap Item.label? := by
  induction items generalizing visible with
  | nil => simp [Item.Resolve]
  | cons first others inductionHypothesis =>
      rw [Item.Resolve, inductionHypothesis]
      constructor
      · rintro ⟨own, rest⟩ before item after split name jumps
        cases before with
        | nil =>
            obtain ⟨rfl, -⟩ := List.cons.inj split
            simpa only [List.nil_append, Item.mem_labels_cons, List.filterMap_nil, List.not_mem_nil,
              or_false] using own name jumps
        | cons head before =>
            obtain ⟨rfl, tail⟩ := List.cons.inj split
            have found := rest before item after tail name jumps
            simpa only [List.cons_append, Item.mem_labels_cons, or_assoc] using found
      · intro all
        constructor
        · intro name jumps
          simpa only [List.nil_append, Item.mem_labels_cons, List.filterMap_nil, List.not_mem_nil,
            or_false] using all [] first others rfl name jumps
        · intro before item after split name jumps
          have found := all (first :: before) item after (by rw [split]; rfl) name jumps
          simpa only [List.cons_append, Item.mem_labels_cons, or_assoc] using found

theorem Program.resolved_iff {program : Program} :
    program.Resolved ↔ Item.Resolve (fun _ => False) program.items := by
  rw [Item.resolve_iff]
  simp [Program.Resolved]

/-- An integer token is not larger than the largest number; other tokens are not asked. -/
def Lexeme.InRange (lexeme : Lexeme) : Prop :=
  lexeme.kind = .integer → Text.decimalValue lexeme.text.toList ≤ Grammar.maxInteger

theorem Lexeme.inRange_of_kind {lexeme : Lexeme} {kind : Kind} (found : lexeme.kind = kind)
    (other : kind ≠ .integer) : lexeme.InRange :=
  fun integer => absurd (found.symm.trans integer) other

def AllInRange (tokens : List Lexeme) : Prop :=
  ∀ lexeme ∈ tokens, lexeme.InRange

@[simp] theorem allInRange_nil : AllInRange [] := by
  simp [AllInRange]

@[simp] theorem allInRange_cons {lexeme : Lexeme} {tokens : List Lexeme} :
    AllInRange (lexeme :: tokens) ↔ lexeme.InRange ∧ AllInRange tokens := by
  simp [AllInRange]

@[simp] theorem allInRange_append {first second : List Lexeme} :
    AllInRange (first ++ second) ↔ AllInRange first ∧ AllInRange second := by
  simp [AllInRange, or_imp, forall_and]

end TapeMachine
