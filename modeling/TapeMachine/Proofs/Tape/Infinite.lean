import Mathlib.Logic.Function.Basic
import TapeMachine.Proofs.Tape.Request

/-!
Contract: the growing tape is a window on a tape without ends.

Owns: the two-way infinite tape with a coordinate for every cursor, its answers to requests, and
the relation between the two tapes, which every request keeps.

Coordinates are absolute: growth on the left moves no marker of the infinite tape, while the
growing tape stores positions relative to its left edge and re-bases all of them.
-/

namespace TapeMachine

structure Marker where
  coordinate : Int
  alive : Bool
deriving DecidableEq, Repr

structure InfiniteTape where
  cell : Int → Char
  /-- The least coordinate that was reached so far. -/
  low : Int
  /-- The greatest coordinate that was reached so far. -/
  high : Int
  markers : List Marker

def Direction.signed (count : Nat) : Direction → Int
  | .left => -count
  | .right => count

namespace InfiniteTape

/-- A text from coordinate zero on, and the filler everywhere else. The cells of the text and one
more count as reached. -/
def ofText (text : List Char) (fill : Char) : InfiniteTape where
  cell := fun coordinate => if coordinate < 0 then fill else text[coordinate.toNat]?.getD fill
  low := 0
  high := text.length
  markers := []

/-- Puts a marker in its place and counts its coordinate as reached. -/
def moveTo (ideal : InfiniteTape) (id : CursorId) (coordinate : Int) : InfiniteTape :=
  { ideal with
    low := min ideal.low coordinate
    high := max ideal.high coordinate
    markers := ideal.markers.modify id fun marker => { marker with coordinate := coordinate } }

/-- What using a marker yields: an error for one that does not exist or is dead. -/
def usable (ideal : InfiniteTape) (id : CursorId) : Except TapeError Marker :=
  match ideal.markers[id]? with
  | none => .error (.unknownCursor id)
  | some marker => if marker.alive then .ok marker else .error (.deadCursor id)

/-- The answer to a request and the tape behind it. Only living markers answer; unregistering
says nothing and ignores a marker that does not exist. -/
def respond (ideal : InfiniteTape) : TapeRequest → TapeAnswer × InfiniteTape
  | .register start =>
      let id := ideal.markers.length
      (.cursor id,
        ({ ideal with markers := ideal.markers ++ [⟨ideal.low, true⟩] } : InfiniteTape).moveTo id
          (ideal.low + start))
  | .unregister id =>
      (.done,
        { ideal with
          markers := ideal.markers.modify id fun marker => { marker with alive := false } })
  | .move id count direction =>
      match ideal.usable id with
      | .error error => (.refused error, ideal)
      | .ok marker => (.done, ideal.moveTo id (marker.coordinate + direction.signed count))
  | .read id =>
      match ideal.usable id with
      | .error error => (.refused error, ideal)
      | .ok marker => (.glyph (ideal.cell marker.coordinate), ideal)
  | .write id glyph =>
      match ideal.usable id with
      | .error error => (.refused error, ideal)
      | .ok marker =>
          (.done, { ideal with cell := Function.update ideal.cell marker.coordinate glyph })
  | .position id =>
      match ideal.usable id with
      | .error error => (.refused error, ideal)
      | .ok marker => (.position (marker.coordinate - ideal.low).toNat, ideal)

def respondAll (ideal : InfiniteTape) : List TapeRequest → List TapeAnswer × InfiniteTape
  | [] => ([], ideal)
  | request :: others =>
      let first := ideal.respond request
      let rest := first.2.respondAll others
      (first.1 :: rest.1, rest.2)

/-- The characters from the least to the greatest coordinate that was reached. -/
def reached (ideal : InfiniteTape) : List Char :=
  (List.range (ideal.high + 1 - ideal.low).toNat).map fun index : Nat =>
    ideal.cell (ideal.low + index)

end InfiniteTape

/-- A growing tape shows the part of an infinite tape that was reached, and stores of each marker
how far it stands from the left edge of that part. -/
structure Mirrors (tape : Tape) (ideal : InfiniteTape) : Prop where
  cells : tape.cells.toList = ideal.reached
  slots : tape.slots.toList =
    ideal.markers.map fun marker => ⟨(marker.coordinate - ideal.low).toNat, marker.alive⟩
  /-- Every marker stands where it or another one has been. -/
  within : ∀ marker ∈ ideal.markers,
    ideal.low ≤ marker.coordinate ∧ marker.coordinate ≤ ideal.high
  ordered : ideal.low ≤ ideal.high
  /-- What was not reached still holds the filler. -/
  beyond : ∀ coordinate, coordinate < ideal.low ∨ ideal.high < coordinate →
    ideal.cell coordinate = tape.fill

/-! ## The part that was reached -/

theorem InfiniteTape.length_reached (ideal : InfiniteTape) :
    ideal.reached.length = (ideal.high + 1 - ideal.low).toNat := by
  simp [reached]

theorem InfiniteTape.getElem?_reached (ideal : InfiniteTape) (index : Nat) :
    ideal.reached[index]? =
      if (ideal.low + index) ≤ ideal.high then some (ideal.cell (ideal.low + index)) else none := by
  by_cases inside : ideal.low + index ≤ ideal.high
  · have bound : index < (ideal.high + 1 - ideal.low).toNat := by omega
    simp [reached, inside, bound]
  · simp [reached, inside]
    omega

theorem InfiniteTape.reached_extend (ideal : InfiniteTape) {fill : Char}
    (ordered : ideal.low ≤ ideal.high)
    (beyond : ∀ coordinate, coordinate < ideal.low ∨ ideal.high < coordinate →
      ideal.cell coordinate = fill)
    (left right : Nat) (markers : List Marker) :
    (InfiniteTape.mk ideal.cell (ideal.low - left) (ideal.high + right) markers).reached =
      List.replicate left fill ++ ideal.reached ++ List.replicate right fill := by
  apply List.ext_getElem?
  intro index
  rw [getElem?_reached, List.append_assoc, List.getElem?_append, List.getElem?_append,
    getElem?_reached, length_reached]
  simp only [List.length_replicate, List.getElem?_replicate]
  by_cases before : index < left
  · have outside := beyond (ideal.low - left + index) (by omega)
    have inside : ideal.low - left + index ≤ ideal.high + right := by omega
    simp [before, outside, inside]
  · by_cases within : ideal.low - left + index ≤ ideal.high
    · have shifted : ideal.low + ((index - left : Nat) : Int) = ideal.low - left + index := by
        omega
      have bound : index - left < (ideal.high + 1 - ideal.low).toNat := by omega
      have inside : ideal.low - left + index ≤ ideal.high + right := by omega
      simp [before, within, shifted, bound, inside]
    · have outside := beyond (ideal.low - left + index) (by omega)
      have bound : ¬ index - left < (ideal.high + 1 - ideal.low).toNat := by omega
      by_cases inside : ideal.low - left + index ≤ ideal.high + right
      · have appended : index - left - (ideal.high + 1 - ideal.low).toNat < right := by omega
        simp [before, bound, outside, inside, appended]
      · have appended : ¬ index - left - (ideal.high + 1 - ideal.low).toNat < right := by omega
        simp [before, bound, inside, appended]

/-! ## The relation between the tapes -/

namespace Mirrors

variable {tape : Tape} {ideal : InfiniteTape}

theorem length_markers (mirrors : Mirrors tape ideal) :
    ideal.markers.length = tape.slots.size := by
  have lengths := congrArg List.length mirrors.slots
  simpa using lengths.symm

theorem getElem?_slots (mirrors : Mirrors tape ideal) (id : CursorId) :
    tape.slots[id]? = ideal.markers[id]?.map fun marker =>
      ⟨(marker.coordinate - ideal.low).toNat, marker.alive⟩ := by
  rw [← Array.getElem?_toList, mirrors.slots, List.getElem?_map]

theorem size_cells (mirrors : Mirrors tape ideal) :
    tape.cells.size = (ideal.high + 1 - ideal.low).toNat := by
  rw [← Array.length_toList, mirrors.cells, ideal.length_reached]

theorem slotPosition_eq (mirrors : Mirrors tape ideal) {id : CursorId} {marker : Marker}
    (found : ideal.markers[id]? = some marker) :
    tape.slotPosition id = (marker.coordinate - ideal.low).toNat := by
  simp [Tape.slotPosition, mirrors.getElem?_slots, found]

theorem within_of_getElem? (mirrors : Mirrors tape ideal) {id : CursorId} {marker : Marker}
    (found : ideal.markers[id]? = some marker) :
    ideal.low ≤ marker.coordinate ∧ marker.coordinate ≤ ideal.high :=
  mirrors.within marker (List.mem_of_getElem? found)

/-- Both tapes refuse the same cursors with the same errors. -/
theorem refusal?_eq (mirrors : Mirrors tape ideal) (id : CursorId) :
    tape.refusal? id =
      match ideal.usable id with
      | .error error => some error
      | .ok _ => none := by
  cases found : ideal.markers[id]? with
  | none => simp [Tape.refusal?, InfiniteTape.usable, mirrors.getElem?_slots, found]
  | some marker =>
      cases alive : marker.alive <;>
        simp [Tape.refusal?, InfiniteTape.usable, mirrors.getElem?_slots, found, alive]

/-- A walk moves the left edge by as many cells as are missing there. -/
theorem low_walk (mirrors : Mirrors tape ideal) {id : CursorId} {marker : Marker}
    (found : ideal.markers[id]? = some marker) (count : Nat) (direction : Direction) :
    min ideal.low (marker.coordinate + direction.signed count) =
      ideal.low - tape.deficit id count direction := by
  have position := mirrors.slotPosition_eq found
  have within := mirrors.within_of_getElem? found
  cases direction <;> simp only [Direction.signed, Tape.deficit, position] <;> omega

/-- A walk moves one marker and keeps all others on their coordinates. -/
theorem walk (mirrors : Mirrors tape ideal) {id : CursorId} {marker : Marker}
    (found : ideal.markers[id]? = some marker) (count : Nat) (direction : Direction) :
    Mirrors (tape.walk id count direction)
      (ideal.moveTo id (marker.coordinate + direction.signed count)) := by
  have position := mirrors.slotPosition_eq found
  have within := mirrors.within_of_getElem? found
  have size := mirrors.size_cells
  have ordered := mirrors.ordered
  have low := mirrors.low_walk found count direction
  have high : max ideal.high (marker.coordinate + direction.signed count) =
      ideal.high + tape.surplus id count direction := by
    cases direction <;> simp only [Direction.signed, Tape.surplus, position, size] <;> omega
  constructor
  · rw [Tape.walk_cells, InfiniteTape.moveTo, low, high,
      ideal.reached_extend ordered mirrors.beyond, ← mirrors.cells]
    simp
  · apply List.ext_getElem?
    intro other
    rw [Array.getElem?_toList, Tape.getElem?_walk, mirrors.getElem?_slots, List.getElem?_map]
    simp only [InfiniteTape.moveTo, low, List.getElem?_modify]
    cases stored : ideal.markers[other]? with
    | none => rfl
    | some present =>
        have placed := mirrors.within_of_getElem? stored
        simp only [Option.map_some, Option.map_eq_map]
        by_cases same : id = other
        · simp only [same, ↓reduceIte]
          subst same
          cases direction <;>
            simp only [Tape.destination, Tape.deficit, Direction.signed, position] <;>
            congr 2 <;> omega
        · simp only [same, ↓reduceIte]
          congr 2
          omega
  · intro moved member
    obtain ⟨other, stands⟩ := List.mem_iff_getElem?.mp member
    simp only [InfiniteTape.moveTo, List.getElem?_modify] at stands ⊢
    cases stored : ideal.markers[other]? with
    | none => simp [stored] at stands
    | some present =>
        have placed := mirrors.within_of_getElem? stored
        by_cases same : id = other
        · simp only [stored, same, ↓reduceIte, Option.map_eq_map, Option.map_some,
            Option.some.injEq] at stands
          subst stands
          simp only
          omega
        · simp only [stored, same, ↓reduceIte, Option.map_eq_map, Option.map_some,
            Option.some.injEq] at stands
          subst stands
          omega
  · simp only [InfiniteTape.moveTo]
    omega
  · intro coordinate outside
    rw [Tape.walk_fill]
    apply mirrors.beyond
    simp only [InfiniteTape.moveTo] at outside
    omega

theorem push (mirrors : Mirrors tape ideal) :
    Mirrors { tape with slots := tape.slots.push ⟨0, true⟩ }
      { ideal with markers := ideal.markers ++ [⟨ideal.low, true⟩] } where
  cells := mirrors.cells
  slots := by simp [mirrors.slots]
  within := by
    intro marker member
    rcases List.mem_append.mp member with old | new
    · exact mirrors.within marker old
    · rw [List.mem_singleton.mp new]
      exact ⟨Int.le_refl _, mirrors.ordered⟩
  ordered := mirrors.ordered
  beyond := mirrors.beyond

theorem register (mirrors : Mirrors tape ideal) (start : Int) :
    (tape.register start).2 = ideal.markers.length ∧
      Mirrors (tape.register start).1 (ideal.respond (.register start)).2 := by
  have length := mirrors.length_markers
  have found : (ideal.markers ++ [⟨ideal.low, true⟩])[tape.slots.size]? =
      some ⟨ideal.low, true⟩ := by simp [← length]
  have walked := mirrors.push.walk found start.natAbs (if start < 0 then .left else .right)
  have distance : (if start < 0 then Direction.left else .right).signed start.natAbs = start := by
    split <;> simp only [Direction.signed] <;> omega
  rw [distance] at walked
  refine ⟨length.symm, ?_⟩
  simpa only [Tape.register, InfiniteTape.respond, length] using walked

theorem unregister (mirrors : Mirrors tape ideal) (id : CursorId) :
    Mirrors (tape.unregister id) (ideal.respond (.unregister id)).2 where
  cells := mirrors.cells
  slots := by
    apply List.ext_getElem?
    intro other
    simp only [Tape.unregister, InfiniteTape.respond, Array.getElem?_toList,
      Array.getElem?_modify, mirrors.getElem?_slots, List.getElem?_map, List.getElem?_modify]
    cases ideal.markers[other]? with
    | none => simp
    | some marker => by_cases same : id = other <;> simp [same]
  within := by
    intro marker member
    obtain ⟨other, stands⟩ := List.mem_iff_getElem?.mp member
    simp only [InfiniteTape.respond, List.getElem?_modify] at stands ⊢
    cases stored : ideal.markers[other]? with
    | none => simp [stored] at stands
    | some present =>
        have placed := mirrors.within_of_getElem? stored
        simp only [stored, Option.map_eq_map, Option.map_some, Option.some.injEq] at stands
        subst stands
        split <;> exact placed
  ordered := mirrors.ordered
  beyond := mirrors.beyond

/-- The cell under a cursor holds the character at the coordinate of its marker. -/
theorem cell_eq (mirrors : Mirrors tape ideal) {id : CursorId} {marker : Marker}
    (found : ideal.markers[id]? = some marker) :
    tape.cells[tape.slotPosition id]? = some (ideal.cell marker.coordinate) := by
  have within := mirrors.within_of_getElem? found
  have inside : ideal.low + ((marker.coordinate - ideal.low).toNat : Int) = marker.coordinate := by
    omega
  rw [mirrors.slotPosition_eq found, ← Array.getElem?_toList, mirrors.cells,
    ideal.getElem?_reached, inside]
  simp [within.2]

theorem put (mirrors : Mirrors tape ideal) {id : CursorId} {marker : Marker}
    (found : ideal.markers[id]? = some marker) (glyph : Char) :
    Mirrors (tape.put id glyph)
      { ideal with cell := Function.update ideal.cell marker.coordinate glyph } where
  cells := by
    have within := mirrors.within_of_getElem? found
    have position := mirrors.slotPosition_eq found
    apply List.ext_getElem?
    intro index
    rw [InfiniteTape.getElem?_reached]
    simp only [Tape.put, Array.toList_setIfInBounds, List.getElem?_set, mirrors.cells,
      ideal.length_reached, ideal.getElem?_reached, position]
    by_cases here : (marker.coordinate - ideal.low).toNat = index
    · have coordinate : ideal.low + (index : Int) = marker.coordinate := by omega
      have bound : index < (ideal.high + 1 - ideal.low).toNat := by omega
      simp [here, coordinate, within.2, bound]
    · have elsewhere : ideal.low + (index : Int) ≠ marker.coordinate := by omega
      simp [here, Function.update_of_ne elsewhere]
  slots := mirrors.slots
  within := mirrors.within
  ordered := mirrors.ordered
  beyond := by
    intro coordinate outside
    have within := mirrors.within_of_getElem? found
    have elsewhere : coordinate ≠ marker.coordinate := by
      simp only at outside
      omega
    show Function.update ideal.cell marker.coordinate glyph coordinate = tape.fill
    rw [Function.update_of_ne elsewhere]
    exact mirrors.beyond coordinate outside

/-! ## Requests -/

theorem getElem?_of_usable {id : CursorId} {marker : Marker}
    (usable : ideal.usable id = .ok marker) : ideal.markers[id]? = some marker := by
  unfold InfiniteTape.usable at usable
  split at usable
  · simp at usable
  · split at usable
    · simp_all
    · simp at usable

/-- One request gets the same answer from both tapes and keeps the relation. -/
theorem respond (mirrors : Mirrors tape ideal) (request : TapeRequest) :
    (tape.respond request).1 = (ideal.respond request).1 ∧
      Mirrors (tape.respond request).2 (ideal.respond request).2 := by
  cases request with
  | register start =>
      obtain ⟨id, registered⟩ := mirrors.register start
      exact ⟨by simp only [Tape.respond, InfiniteTape.respond, id], registered⟩
  | unregister id => exact ⟨rfl, mirrors.unregister id⟩
  | move id count direction =>
      have refusal := mirrors.refusal?_eq id
      cases usable : ideal.usable id with
      | error error =>
          simpa [Tape.respond, InfiniteTape.respond, Tape.move, refusal, usable] using mirrors
      | ok marker =>
          simpa [Tape.respond, InfiniteTape.respond, Tape.move, refusal, usable] using
            mirrors.walk (getElem?_of_usable usable) count direction
  | read id =>
      have refusal := mirrors.refusal?_eq id
      cases usable : ideal.usable id with
      | error error =>
          simpa [Tape.respond, InfiniteTape.respond, Tape.read, refusal, usable] using mirrors
      | ok marker =>
          have cell := mirrors.cell_eq (getElem?_of_usable usable)
          simpa [Tape.respond, InfiniteTape.respond, Tape.read, refusal, usable, cell] using mirrors
  | write id glyph =>
      have refusal := mirrors.refusal?_eq id
      cases usable : ideal.usable id with
      | error error =>
          simpa [Tape.respond, InfiniteTape.respond, Tape.write, refusal, usable] using mirrors
      | ok marker =>
          simpa [Tape.respond, InfiniteTape.respond, Tape.write, refusal, usable] using
            mirrors.put (getElem?_of_usable usable) glyph
  | position id =>
      have refusal := mirrors.refusal?_eq id
      cases usable : ideal.usable id with
      | error error =>
          simpa [Tape.respond, InfiniteTape.respond, Tape.position, refusal, usable] using mirrors
      | ok marker =>
          have position := mirrors.slotPosition_eq (getElem?_of_usable usable)
          simpa [Tape.respond, InfiniteTape.respond, Tape.position, refusal, usable, position]
            using mirrors

theorem respondAll (mirrors : Mirrors tape ideal) (requests : List TapeRequest) :
    (tape.respondAll requests).1 = (ideal.respondAll requests).1 ∧
      Mirrors (tape.respondAll requests).2 (ideal.respondAll requests).2 := by
  induction requests generalizing tape ideal with
  | nil => exact ⟨rfl, mirrors⟩
  | cons request others inductionHypothesis =>
      obtain ⟨answer, next⟩ := mirrors.respond request
      obtain ⟨answers, last⟩ := inductionHypothesis next
      exact ⟨by simp only [Tape.respondAll, InfiniteTape.respondAll, answer, answers], last⟩

/-- A request that uses a marker that does not exist or is dead is refused. -/
theorem refused_of_unusable (mirrors : Mirrors tape ideal) {request : TapeRequest} {id : CursorId}
    {error : TapeError} (uses : request.uses? = some id) (unusable : ideal.usable id = .error error) :
    request.uses?.bind tape.refusal? = some error := by
  rw [uses, Option.bind_some, mirrors.refusal?_eq, unusable]

/-- Unregistering a cursor that does not exist or is dead changes nothing. -/
theorem unregister_unusable (mirrors : Mirrors tape ideal) {id : CursorId} {error : TapeError}
    (unusable : ideal.usable id = .error error) : tape.unregister id = tape := by
  have refusal := mirrors.refusal?_eq id
  rw [unusable] at refusal
  apply Tape.ext
  · rfl
  · apply Array.ext_getElem?
    intro other
    simp only [Tape.unregister, Array.getElem?_modify]
    split
    · rename_i same
      subst same
      cases found : tape.slots[id]? with
      | none => rfl
      | some slot =>
          -- A slot that refuses its use is dead already.
          have dead : slot.alive = false := by
            cases alive : slot.alive <;> simp [Tape.refusal?, found, alive] at refusal ⊢
          cases slot
          simp_all
    · rfl
  · rfl
  · rfl

/-- A tape without cursors that has just been loaded shows its text and one fill cell. -/
theorem load (bare : tape.slots = #[]) (text : List Char) :
    Mirrors (tape.load text) (.ofText text tape.fill) where
  cells := by
    have large : 1 - (text.length + 1) = 0 := by omega
    have loaded : (tape.load text).cells.toList = text ++ [tape.fill] := by
      simp [Tape.load, Tape.reset, Tape.growTo_cells, bare, large]
    rw [loaded]
    apply List.ext_getElem?
    intro index
    rw [InfiniteTape.getElem?_reached, List.getElem?_append]
    by_cases inside : index < text.length
    · have reached : (index : Int) ≤ text.length := by omega
      have natural : ¬ (index : Int) < 0 := by omega
      simp [InfiniteTape.ofText, inside, reached, natural]
    · by_cases trailing : index = text.length
      · simp [InfiniteTape.ofText, trailing]
      · have outside : ¬ (index : Int) ≤ text.length := by omega
        have positive : 0 < index - text.length := by omega
        simp [InfiniteTape.ofText, inside, outside, Nat.pos_iff_ne_zero.mp positive]
  slots := by simp [Tape.load, Tape.reset, bare, InfiniteTape.ofText]
  within := by simp [InfiniteTape.ofText]
  ordered := by simp [InfiniteTape.ofText]
  beyond := by
    intro coordinate outside
    have fill : (tape.load text).fill = tape.fill := by simp [Tape.load, Tape.reset]
    rw [fill]
    simp only [InfiniteTape.ofText] at outside ⊢
    by_cases negative : coordinate < 0
    · simp [negative]
    · have past : text.length ≤ coordinate.toNat := by omega
      simp [negative, List.getElem?_eq_none past]

end Mirrors

end TapeMachine
