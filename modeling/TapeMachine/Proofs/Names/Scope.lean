import TapeMachine.Names.Environment
import TapeMachine.Proofs.Names.Table

/-!
Contract: what entering a scope and binding a name do to the names that are visible.

Owns: look-up after binding and after entering a scope, and scopes whose values are changed one by
one, which bind the same names.
-/

namespace TapeMachine

variable {α β : Type}

namespace Environment

@[simp] theorem contains_empty (name : String) :
    (empty : Environment α).contains name = false := rfl

@[simp] theorem unnest_nest (environment : Environment α) :
    environment.nest.unnest = environment := rfl

/-- A scope that has just been entered hides nothing. -/
@[simp] theorem contains_nest (environment : Environment α) (name : String) :
    environment.nest.contains name = environment.contains name := by
  simp only [contains, get?, nest, scopes, List.cons_append, List.findSome?_cons,
    NameTable.get?_empty]

/-- Binding makes one more name visible, whatever it is bound to. -/
theorem contains_define (environment : Environment α) (name other : String) (value : α) :
    (environment.define name value).contains other =
      (decide (other = name) || environment.contains other) := by
  unfold define contains get? scopes
  by_cases same : other = name
  · subst same
    cases environment.nested with
    | nil => simp [NameTable.get?_insert_self]
    | cons innermost others => simp [NameTable.get?_insert_self]
  · cases environment.nested with
    | nil => simp [NameTable.get?_insert_of_ne, same]
    | cons innermost others =>
        simp [List.findSome?_cons, NameTable.get?_insert_of_ne innermost value same, same]

end Environment

/-! ## Changed values -/

namespace Environment

def map (change : α → β) (environment : Environment α) : Environment β :=
  ⟨environment.outermost.map change, environment.nested.map (NameTable.map change)⟩

theorem map_nest (change : α → β) (environment : Environment α) :
    environment.nest.map change = (environment.map change).nest := rfl

theorem map_unnest (change : α → β) (environment : Environment α) :
    environment.unnest.map change = (environment.map change).unnest := by
  simp [unnest, map, List.map_tail]

theorem map_define (change : α → β) (environment : Environment α) (name : String) (value : α) :
    (environment.define name value).map change =
      (environment.map change).define name (change value) := by
  rcases environment with ⟨outermost, _ | ⟨innermost, others⟩⟩ <;>
    simp [define, map, NameTable.map_insert]

@[simp] theorem contains_map (change : α → β) (environment : Environment α) (name : String) :
    (environment.map change).contains name = environment.contains name := by
  have scopes : (environment.map change).scopes = environment.scopes.map (.map change) := by
    simp [Environment.scopes, map]
  rw [contains, contains, get?, get?, scopes]
  induction environment.scopes with
  | nil => rfl
  | cons scope others inductionHypothesis =>
      rw [List.map_cons, List.findSome?_cons, List.findSome?_cons, NameTable.get?_map]
      cases scope.get? name with
      | none => exact inductionHypothesis
      | some value => rfl

end Environment

end TapeMachine
