import TapeMachine.Proofs.Syntax.Typing

/-!
Contract: the routines of a program.

Owns: the statements and the label definitions of the top level, the body that a jump to a label
leads to, and that every jump of a resolved program leads to one.
-/

namespace TapeMachine.Program

/-- The statements of the top level. -/
def statements (program : Program) : List Statement :=
  program.items.filterMap fun item =>
    match item with
    | .statement entry => some entry
    | .label _ => none

/-- The body of the last definition of a label. -/
def body? (program : Program) (name : String) : Option Block :=
  (program.labels.reverse.find? fun definition => definition.name = name).map LabelDefinition.body

theorem mem_labels {program : Program} {definition : LabelDefinition} :
    definition ∈ program.labels ↔ Item.label definition ∈ program.items := by
  simp only [labels, List.mem_filterMap]
  constructor
  · rintro ⟨item, member, found⟩
    cases item with
    | statement entry => simp at found
    | label other =>
        obtain rfl := Option.some.inj found
        exact member
  · exact fun member => ⟨_, member, rfl⟩

theorem mem_statements {program : Program} {entry : Statement} :
    entry ∈ program.statements ↔ Item.statement entry ∈ program.items := by
  simp only [statements, List.mem_filterMap]
  constructor
  · rintro ⟨item, member, found⟩
    cases item with
    | statement other =>
        obtain rfl := Option.some.inj found
        exact member
    | label definition => simp at found
  · exact fun member => ⟨_, member, rfl⟩

theorem names_labels (program : Program) :
    program.labels.map LabelDefinition.name = program.items.filterMap Item.label? := by
  rw [labels, List.map_filterMap]
  congr 1
  funext item
  cases item <;> rfl

theorem body?_isSome (program : Program) (name : String) :
    (program.body? name).isSome = true ↔ name ∈ program.items.filterMap Item.label? := by
  simp only [← names_labels, body?, Option.isSome_map, List.find?_isSome, List.mem_reverse,
    List.mem_map, decide_eq_true_eq]

/-- The body that a jump leads to is that of the last definition of the name. -/
theorem body?_eq_some_iff {program : Program} {name : String} {body : Block} :
    program.body? name = some body ↔
      ∃ before definition after, program.labels = before ++ definition :: after ∧
        definition.name = name ∧ definition.body = body ∧ ∀ other ∈ after, other.name ≠ name := by
  rw [body?, Option.map_eq_some_iff]
  constructor
  · rintro ⟨definition, found, rfl⟩
    obtain ⟨named, after, before, split, others⟩ := List.find?_eq_some_iff_append.mp found
    refine ⟨before.reverse, definition, after.reverse, ?_, by simpa using named, rfl, ?_⟩
    · rw [← program.labels.reverse_reverse, split]
      simp
    · exact fun other member => by simpa using others other (List.mem_reverse.mp member)
  · rintro ⟨before, definition, after, split, named, rfl, others⟩
    refine ⟨definition, List.find?_eq_some_iff_append.mpr ⟨by simpa using named, after.reverse,
      before.reverse, by simp [split], ?_⟩, rfl⟩
    exact fun other member => by simpa using others other (List.mem_reverse.mp member)

theorem label_of_body? {program : Program} {name : String} {body : Block}
    (found : program.body? name = some body) :
    ∃ definition, Item.label definition ∈ program.items ∧ definition.body = body := by
  obtain ⟨before, definition, after, split, -, same, -⟩ := body?_eq_some_iff.mp found
  exact ⟨definition, mem_labels.mp (by simp [split]), same⟩

/-- In a resolved program every jump leads to a body. -/
theorem Resolved.body? {program : Program} (resolved : program.Resolved) {item : Item}
    (member : item ∈ program.items) {name : String} (jumps : name ∈ item.gotos) :
    (program.body? name).isSome = true := by
  obtain ⟨before, after, split⟩ := List.append_of_mem member
  rw [body?_isSome, split, ← List.singleton_append, ← List.append_assoc, List.filterMap_append]
  exact List.mem_append_left _ (resolved before item after split name jumps)

/-- A jump in the body of a definition leads to an earlier definition or to the same one. -/
theorem Resolved.earlier {program : Program} (resolved : program.Resolved)
    {before after : List LabelDefinition} {definition : LabelDefinition}
    (split : program.labels = before ++ definition :: after) {name : String}
    (jumps : name ∈ definition.body.gotos) :
    name ∈ before.map LabelDefinition.name ∨ name = definition.name := by
  obtain ⟨front, rest, items, rfl, tail⟩ := List.filterMap_eq_append_iff.mp split
  obtain ⟨skipped, item, back, rfl, statements, same, -⟩ := List.filterMap_eq_cons_iff.mp tail
  cases item with
  | statement entry => simp at same
  | label other =>
      obtain rfl := Option.some.inj same
      have found := resolved (front ++ skipped) (.label other) back (by simp [items]) name jumps
      have unnamed : skipped.filterMap Item.label? = [] := by
        rw [← names_labels ⟨skipped⟩, labels, List.filterMap_eq_nil_iff.mpr statements]
        rfl
      have named := names_labels ⟨front⟩
      rw [labels] at named
      rw [named]
      simpa [unnamed, Item.label?, eq_comm] using found

end TapeMachine.Program
