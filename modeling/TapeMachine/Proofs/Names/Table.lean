import TapeMachine.Names.Table

/-!
Contract: what is in a finite map from names.

Owns: the members of a sorted list of names and their order, the last binding of a list of them, and
tables whose values are changed one by one, which bind the same names.
-/

namespace TapeMachine

variable {α β : Type}

/-! ## Sorted names -/

theorem mem_insertName {name other : String} {names : List String} :
    other ∈ insertName name names ↔ other = name ∨ other ∈ names := by
  induction names with
  | nil => simp [insertName]
  | cons first others inductionHypothesis =>
      rw [insertName]
      split
      next => exact List.mem_cons
      next before =>
        split
        next => simp only [List.mem_cons, inductionHypothesis, or_left_comm]
        next behind =>
          obtain rfl : name = first := String.le_antisymm behind before
          simp

theorem mem_sortNames {name : String} {names : List String} :
    name ∈ sortNames names ↔ name ∈ names := by
  induction names with
  | nil => rfl
  | cons first others inductionHypothesis =>
      rw [sortNames, List.foldr_cons, mem_insertName, List.mem_cons]
      exact or_congr_right inductionHypothesis

theorem ascending_insertName (name : String) {names : List String}
    (ascending : names.Pairwise (· < ·)) : (insertName name names).Pairwise (· < ·) := by
  induction names with
  | nil => exact List.pairwise_singleton _ name
  | cons first others inductionHypothesis =>
      have parts := List.pairwise_cons.mp ascending
      rw [insertName]
      split
      next before =>
        refine List.pairwise_cons.mpr ⟨fun other member => ?_, ascending⟩
        rcases List.mem_cons.mp member with rfl | later
        · exact before
        · exact String.lt_trans before (parts.1 other later)
      next =>
        split
        next behind =>
          refine List.pairwise_cons.mpr ⟨fun other member => ?_, inductionHypothesis parts.2⟩
          rcases mem_insertName.mp member with rfl | later
          · exact behind
          · exact parts.1 other later
        next => exact ascending

/-- Sorted names ascend strictly: a name that occurs more than once is listed once. -/
theorem ascending_sortNames (names : List String) : (sortNames names).Pairwise (· < ·) := by
  induction names with
  | nil => exact .nil
  | cons first others inductionHypothesis => exact ascending_insertName first inductionHypothesis

/-! ## Tables -/

namespace NameTable

theorem isSome_get? (table : NameTable α) (name : String) :
    (table.get? name).isSome = true ↔ name ∈ table.entries.map Prod.fst := by
  simp [get?]

theorem mem_names {table : NameTable α} {name : String} :
    name ∈ table.names ↔ (table.get? name).isSome = true := by
  rw [names, mem_sortNames, isSome_get?]

/-- Of two bindings of a name nothing is left of the first. -/
theorem insert_insert (table : NameTable α) (name : String) (first second : α) :
    (table.insert name first).insert name second = table.insert name second := by
  simp [insert]

theorem get?_foldl_insert (entries : List (String × α)) (table : NameTable α) (name : String) :
    (entries.foldl (fun table entry => table.insert entry.1 entry.2) table).get? name =
      ((entries.reverse.find? fun entry => entry.1 = name).map Prod.snd).or (table.get? name) := by
  induction entries generalizing table with
  | nil => rfl
  | cons entry others inductionHypothesis =>
      rw [List.foldl_cons, inductionHypothesis, List.reverse_cons, List.find?_append]
      cases later : others.reverse.find? fun entry => entry.1 = name with
      | some found => rfl
      | none =>
          by_cases same : entry.1 = name
          · subst same
            simp [get?_insert_self]
          · have distinct : name ≠ entry.1 := fun equal => same equal.symm
            simp [get?_insert_of_ne table entry.2 distinct, same]

/-- The last of several bindings of a name is the one that counts. -/
theorem get?_ofList (entries : List (String × α)) (name : String) :
    (ofList entries).get? name =
      (entries.reverse.find? fun entry => entry.1 = name).map Prod.snd := by
  rw [ofList, get?_foldl_insert, get?_empty, Option.or_none]

/-- Names that occur once are all kept. -/
theorem entries_foldl_insert (entries : List (String × α)) (table : NameTable α)
    (distinct : ((entries.reverse ++ table.entries).map Prod.fst).Nodup) :
    (entries.foldl (fun table entry => table.insert entry.1 entry.2) table).entries =
      entries.reverse ++ table.entries := by
  induction entries generalizing table with
  | nil => rfl
  | cons entry others inductionHypothesis =>
      rw [List.reverse_cons, List.append_assoc] at distinct ⊢
      have fresh : entry.1 ∉ table.entries.map Prod.fst := by
        have parts := (List.nodup_append.mp (List.map_append ▸ distinct)).2.1
        exact (List.nodup_cons.mp parts).1
      have kept : table.entries.filter (fun other => other.1 ≠ entry.1) = table.entries :=
        List.filter_eq_self.mpr fun other member => decide_eq_true fun same =>
          fresh (List.mem_map.mpr ⟨other, member, same⟩)
      have added : (table.insert entry.1 entry.2).entries = [entry] ++ table.entries := by
        rw [insert, kept]
        rfl
      rw [List.foldl_cons, inductionHypothesis _ (added ▸ distinct), added]

theorem entries_ofList {entries : List (String × α)} (distinct : (entries.map Prod.fst).Nodup) :
    (ofList entries).entries = entries.reverse := by
  rw [ofList, entries_foldl_insert]
  · exact List.append_nil _
  · rw [empty, List.append_nil, List.map_reverse]
    exact List.pairwise_reverse.mpr (distinct.imp Ne.symm)

/-! ## Changed values -/

def map (change : α → β) (table : NameTable α) : NameTable β :=
  ⟨table.entries.map fun entry => (entry.1, change entry.2)⟩

theorem get?_map (change : α → β) (table : NameTable α) (name : String) :
    (table.map change).get? name = (table.get? name).map change := by
  simp [get?, map, List.find?_map, Function.comp_def]

theorem map_insert (change : α → β) (table : NameTable α) (name : String) (value : α) :
    (table.insert name value).map change = (table.map change).insert name (change value) := by
  simp [insert, map, List.filter_map, Function.comp_def]

theorem map_ofList (change : α → β) (entries : List (String × α)) :
    (ofList entries).map change = ofList (entries.map fun entry => (entry.1, change entry.2)) := by
  have along (table : NameTable α) :
      (entries.foldl (fun table entry => table.insert entry.1 entry.2) table).map change =
        (entries.map fun entry => (entry.1, change entry.2)).foldl
          (fun table entry => table.insert entry.1 entry.2) (table.map change) := by
    induction entries generalizing table with
    | nil => rfl
    | cons entry others inductionHypothesis =>
        simp only [List.foldl_cons, List.map_cons, inductionHypothesis, map_insert]
  exact along empty

@[simp] theorem names_map (change : α → β) (table : NameTable α) :
    (table.map change).names = table.names := by
  simp [names, map, Function.comp_def]

end NameTable

end TapeMachine
