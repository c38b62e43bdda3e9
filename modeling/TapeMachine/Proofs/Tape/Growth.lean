import TapeMachine.Tape.Basic

/-!
Contract: what the operations of a tape do to its cells and to its cursors.

Owns: the cells, the slots and the filler after growth, a walk and a write; which operations keep a
cursor alive; the splitting of a walk into shorter ones; and what a living cursor can do.

Does not own: where cursors are on an unbounded tape; `Proofs.Tape.Infinite` does.
-/

namespace TapeMachine.Tape

attribute [ext] Tape

/-! ## Cells and slots after one operation -/

@[simp] theorem growTo_slots (tape : Tape) (size : Nat) : (tape.growTo size).slots = tape.slots := by
  unfold growTo
  split <;> rfl

@[simp] theorem growTo_fill (tape : Tape) (size : Nat) : (tape.growTo size).fill = tape.fill := by
  unfold growTo
  split <;> rfl

@[simp] theorem growTo_initial (tape : Tape) (size : Nat) :
    (tape.growTo size).initial = tape.initial := by
  unfold growTo
  split <;> rfl

theorem growTo_of_le {tape : Tape} {size : Nat} (large : size ≤ tape.cells.size) :
    tape.growTo size = tape := by
  simp [growTo, Nat.not_lt.mpr large]

/-- Growth to the right appends as many fill cells as are missing. -/
theorem growTo_cells (tape : Tape) (size : Nat) :
    (tape.growTo size).cells =
      tape.cells ++ Array.replicate (size - tape.cells.size) tape.fill := by
  unfold growTo
  split
  · rfl
  · rename_i large
    have none : size - tape.cells.size = 0 := by omega
    simp [none]

@[simp] theorem growTo_size (tape : Tape) (size : Nat) :
    (tape.growTo size).cells.size = max tape.cells.size size := by
  rw [growTo_cells]
  simp
  omega

@[simp] theorem place_cells (tape : Tape) (id : CursorId) (position : Nat) :
    (tape.place id position).cells = tape.cells := rfl

@[simp] theorem place_fill (tape : Tape) (id : CursorId) (position : Nat) :
    (tape.place id position).fill = tape.fill := rfl

@[simp] theorem growLeft_cells (tape : Tape) (count : Nat) :
    (tape.growLeft count).cells = Array.replicate count tape.fill ++ tape.cells := rfl

@[simp] theorem growLeft_fill (tape : Tape) (count : Nat) :
    (tape.growLeft count).fill = tape.fill := rfl

theorem getElem?_place (tape : Tape) (id other : CursorId) (position : Nat) :
    (tape.place id position).slots[other]? =
      if id = other then tape.slots[other]?.map fun slot => { slot with position := position }
      else tape.slots[other]? := by
  simp only [place, Array.getElem?_modify]

theorem getElem?_growLeft (tape : Tape) (count : Nat) (other : CursorId) :
    (tape.growLeft count).slots[other]? =
      tape.slots[other]?.map fun slot => { slot with position := slot.position + count } := by
  simp [growLeft]

@[simp] theorem walk_fill (tape : Tape) (id : CursorId) (count : Nat) (direction : Direction) :
    (tape.walk id count direction).fill = tape.fill := by
  cases direction with
  | right => simp [walk]
  | left =>
      simp only [walk]
      split <;> simp

/-! ## Slots of all cursors after a walk -/

/-- How far a walk pushes the stored positions along. -/
def deficit (tape : Tape) (id : CursorId) (count : Nat) : Direction → Nat
  | .right => 0
  | .left => count - tape.slotPosition id

/-- The position that is stored for a cursor after it has walked. -/
def destination (tape : Tape) (id : CursorId) (count : Nat) : Direction → Nat
  | .right => tape.slotPosition id + count
  | .left => tape.slotPosition id - count

def surplus (tape : Tape) (id : CursorId) (count : Nat) : Direction → Nat
  | .right => tape.slotPosition id + count + 1 - tape.cells.size
  | .left => 0

/-- A walk grows the tape on one side at most. -/
theorem walk_cells (tape : Tape) (id : CursorId) (count : Nat) (direction : Direction) :
    (tape.walk id count direction).cells =
      Array.replicate (tape.deficit id count direction) tape.fill ++ tape.cells ++
        Array.replicate (tape.surplus id count direction) tape.fill := by
  cases direction with
  | right => simp [walk, growTo_cells, deficit, surplus]
  | left =>
      simp only [walk, deficit, surplus]
      split
      · rename_i short
        simp [Nat.sub_eq_zero_of_le short]
      · simp

theorem size_walk (tape : Tape) (id : CursorId) (count : Nat) (direction : Direction) :
    (tape.walk id count direction).cells.size =
      tape.deficit id count direction + tape.cells.size + tape.surplus id count direction := by
  simp [walk_cells, Nat.add_assoc]

/-- A walk stores the destination of its own cursor and pushes all others along. -/
theorem getElem?_walk (tape : Tape) (id other : CursorId) (count : Nat) (direction : Direction) :
    (tape.walk id count direction).slots[other]? =
      tape.slots[other]?.map fun slot =>
        { slot with
          position :=
            if id = other then tape.destination id count direction
            else slot.position + tape.deficit id count direction } := by
  cases direction with
  | right =>
      simp only [walk, getElem?_place, growTo_slots, destination, deficit]
      split <;> simp
  | left =>
      simp only [walk, destination, deficit]
      by_cases short : count ≤ tape.slotPosition id
      · have none : count - tape.slotPosition id = 0 := by omega
        simp only [short, ↓reduceIte, getElem?_place, none]
        split <;> simp
      · have zero : tape.slotPosition id - count = 0 := by omega
        simp only [short, ↓reduceIte, getElem?_place, getElem?_growLeft, zero]
        split <;> simp [Function.comp_def]

@[simp] theorem walk_initial (tape : Tape) (id : CursorId) (count : Nat) (direction : Direction) :
    (tape.walk id count direction).initial = tape.initial := by
  cases direction with
  | right => simp [walk, place]
  | left =>
      simp only [walk]
      split <;> rfl

theorem slotPosition_walk_self (tape : Tape) {id : CursorId} (registered : id < tape.slots.size)
    (count : Nat) (direction : Direction) :
    (tape.walk id count direction).slotPosition id = tape.destination id count direction := by
  rw [slotPosition, getElem?_walk, Array.getElem?_eq_getElem registered]
  simp

/-! ## Walks in one direction -/

/-- The cursor stands on a cell of the tape. -/
def OnTape (tape : Tape) (id : CursorId) : Prop :=
  tape.slotPosition id < tape.cells.size

theorem onTape_walk (tape : Tape) {id : CursorId} (registered : id < tape.slots.size)
    (onTape : tape.OnTape id) (count : Nat) (direction : Direction) :
    (tape.walk id count direction).OnTape id := by
  unfold OnTape at onTape ⊢
  rw [slotPosition_walk_self tape registered, walk_cells]
  cases direction <;> simp [destination, deficit, surplus] <;> omega

theorem onTape_put {tape : Tape} {id : CursorId} (onTape : tape.OnTape id) (glyph : Char) :
    (tape.put id glyph).OnTape id := by
  simpa [OnTape, put, slotPosition] using onTape

theorem walk_zero (tape : Tape) {id : CursorId} (onTape : tape.OnTape id)
    (direction : Direction) : tape.walk id 0 direction = tape := by
  apply Tape.ext
  · unfold OnTape at onTape
    rw [walk_cells]
    cases direction with
    | right => simp [deficit, surplus, Nat.sub_eq_zero_of_le onTape]
    | left => simp [deficit, surplus]
  · apply Array.ext_getElem?
    intro other
    rw [getElem?_walk]
    cases found : tape.slots[other]? with
    | none => rfl
    | some slot =>
        by_cases same : id = other
        · subst same
          have position : tape.slotPosition id = slot.position := by simp [slotPosition, found]
          cases direction <;> simp [destination, position]
        · cases direction <;> simp [deficit, same]
  · simp
  · simp

theorem walk_walk (tape : Tape) {id : CursorId} (registered : id < tape.slots.size)
    (first second : Nat) (direction : Direction) :
    (tape.walk id first direction).walk id second direction =
      tape.walk id (first + second) direction := by
  have position := slotPosition_walk_self tape registered first direction
  apply Tape.ext
  · rw [walk_cells _ id second, walk_cells tape id (first + second)]
    simp only [deficit, surplus, position, size_walk, walk_fill]
    rw [walk_cells tape id first]
    cases direction with
    | right =>
        simp only [deficit, surplus, destination, Array.replicate_zero, Array.empty_append,
          Array.append_assoc, Array.replicate_append_replicate]
        congr 2
        omega
    | left =>
        simp only [deficit, surplus, destination, Array.replicate_zero, Array.append_empty]
        rw [← Array.append_assoc, Array.replicate_append_replicate]
        congr 2
        omega
  · apply Array.ext_getElem?
    intro other
    rw [getElem?_walk, getElem?_walk, getElem?_walk, Option.map_map]
    congr 1
    funext slot
    simp only [Function.comp_apply]
    by_cases same : id = other
    · subst same
      cases direction with
      | right =>
          simp only [↓reduceIte, destination, position]
          congr 1
          omega
      | left =>
          simp only [↓reduceIte, destination, position]
          congr 1
          omega
    · cases direction with
      | right => simp only [same, ↓reduceIte, deficit, Nat.add_zero]
      | left =>
          simp only [same, ↓reduceIte, deficit, position, destination]
          congr 1
          omega
  · simp
  · simp

/-! ## Liveness -/

theorem isAlive_iff (tape : Tape) (id : CursorId) :
    tape.isAlive id = true ↔ ∃ slot, tape.slots[id]? = some slot ∧ slot.alive = true := by
  cases found : tape.slots[id]? <;> simp [isAlive, found]

theorem refusal?_eq_none_iff (tape : Tape) (id : CursorId) :
    tape.refusal? id = none ↔ tape.isAlive id = true := by
  cases found : tape.slots[id]? <;> simp [isAlive, refusal?, found]

theorem registered_of_isAlive {tape : Tape} {id : CursorId} (alive : tape.isAlive id = true) :
    id < tape.slots.size := by
  obtain ⟨slot, found, -⟩ := (tape.isAlive_iff id).mp alive
  exact (Array.getElem?_eq_some_iff.mp found).1

@[simp] theorem isAlive_walk (tape : Tape) (id other : CursorId) (count : Nat)
    (direction : Direction) :
    (tape.walk id count direction).isAlive other = tape.isAlive other := by
  simp [isAlive, getElem?_walk, Function.comp_def]

@[simp] theorem isAlive_put (tape : Tape) (id other : CursorId) (glyph : Char) :
    (tape.put id glyph).isAlive other = tape.isAlive other := rfl

theorem isAlive_unregister (tape : Tape) (id other : CursorId) :
    (tape.unregister id).isAlive other = (tape.isAlive other && decide (id ≠ other)) := by
  simp only [isAlive, unregister, Array.getElem?_modify]
  by_cases same : id = other
  · subst same
    cases tape.slots[id]? <;> simp
  · simp [same]

@[simp] theorem isAlive_reset (tape : Tape) (resetCursors : Bool) (id : CursorId) :
    (tape.reset resetCursors).isAlive id = tape.isAlive id := by
  unfold reset
  split <;> simp [isAlive, Function.comp_def]

@[simp] theorem isAlive_load (tape : Tape) (initial : List Char) (id : CursorId) :
    (tape.load initial).isAlive id = tape.isAlive id := by
  simp [load, isAlive_reset]
  rfl

theorem isAlive_register (tape : Tape) (start : Int) (id : CursorId) :
    (tape.register start).1.isAlive id = (tape.isAlive id || decide (id = tape.slots.size)) := by
  simp only [register, isAlive_walk]
  simp only [isAlive, Array.getElem?_push]
  by_cases fresh : id = tape.slots.size
  · simp [fresh]
  · simp [fresh]

@[simp] theorem register_snd (tape : Tape) (start : Int) :
    (tape.register start).2 = tape.slots.size := rfl

/-! ## Use of a living cursor -/

structure Ready (tape : Tape) (id : CursorId) : Prop where
  alive : tape.isAlive id = true
  onTape : tape.OnTape id

namespace Ready

variable {tape : Tape} {id : CursorId}

theorem refusal?_eq_none (ready : tape.Ready id) : tape.refusal? id = none :=
  (tape.refusal?_eq_none_iff id).mpr ready.alive

theorem read (ready : tape.Ready id) : ∃ glyph, tape.read id = .ok glyph := by
  simp [Tape.read, ready.refusal?_eq_none]

theorem write_eq (ready : tape.Ready id) (glyph : Char) :
    tape.write id glyph = .ok (tape.put id glyph) := by
  simp [write, ready.refusal?_eq_none]

theorem move_eq (ready : tape.Ready id) (count : Nat) (direction : Direction) :
    tape.move id count direction = .ok (tape.walk id count direction) := by
  simp [move, ready.refusal?_eq_none]

theorem put (ready : tape.Ready id) (glyph : Char) : (tape.put id glyph).Ready id :=
  ⟨by simpa using ready.alive, onTape_put ready.onTape glyph⟩

theorem walk (ready : tape.Ready id) (count : Nat) (direction : Direction) :
    (tape.walk id count direction).Ready id :=
  ⟨by simpa using ready.alive,
    onTape_walk tape (registered_of_isAlive ready.alive) ready.onTape count direction⟩

end Ready

theorem ready_register (tape : Tape) (filled : 0 < tape.cells.size) (start : Int) :
    (tape.register start).1.Ready (tape.register start).2 := by
  constructor
  · simp [isAlive_register]
  · simp only [register]
    apply onTape_walk
    · simp
    · simpa [OnTape, slotPosition] using filled

end TapeMachine.Tape
