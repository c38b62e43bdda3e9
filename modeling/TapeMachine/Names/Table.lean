/-!
Contract: a finite map from names.

Owns: binding a name, which replaces an earlier binding of it, looking a name up, and the sorted
list of names.

The order of the entries is of no consequence: what can be observed is what each name is bound to
and which names there are.
-/

namespace TapeMachine

/-- Each name occurs in one entry at most. -/
structure NameTable (α : Type) where
  entries : List (String × α)
deriving Repr

/-- Adds a name to a strictly ascending list of names, unless it is there. -/
def insertName (name : String) : List String → List String
  | [] => [name]
  | first :: others =>
      if name < first then name :: first :: others
      else if first < name then first :: insertName name others
      else first :: others

def sortNames (names : List String) : List String :=
  names.foldr insertName []

namespace NameTable

variable {α : Type}

def empty : NameTable α :=
  ⟨[]⟩

def isEmpty (table : NameTable α) : Bool :=
  table.entries.isEmpty

def get? (table : NameTable α) (name : String) : Option α :=
  (table.entries.find? fun entry => entry.1 = name).map Prod.snd

/-- Binds a name, in place of an earlier binding. -/
def insert (table : NameTable α) (name : String) (value : α) : NameTable α :=
  ⟨(name, value) :: table.entries.filter fun entry => entry.1 ≠ name⟩

def ofList (entries : List (String × α)) : NameTable α :=
  entries.foldl (fun table entry => table.insert entry.1 entry.2) empty

def names (table : NameTable α) : List String :=
  sortNames (table.entries.map Prod.fst)

def size (table : NameTable α) : Nat :=
  table.entries.length

theorem get?_empty (name : String) : (empty : NameTable α).get? name = none := rfl

theorem get?_insert_self (table : NameTable α) (name : String) (value : α) :
    (table.insert name value).get? name = some value := by
  simp [get?, insert]

theorem get?_insert_of_ne (table : NameTable α) {name other : String} (value : α)
    (distinct : other ≠ name) : (table.insert name value).get? other = table.get? other := by
  have swapped : name ≠ other := fun same => distinct same.symm
  simp only [get?, insert, List.find?_cons, swapped, decide_false]
  congr 1
  rw [List.find?_filter]
  congr 1
  funext entry
  by_cases same : entry.1 = other
  · simp [same, distinct]
  · simp [same]

end NameTable

end TapeMachine
