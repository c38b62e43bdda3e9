import TapeMachine.Proofs.Json.Reading
import TapeMachine.Snapshot.View

/-!
Contract: what a cursor sees is read back from the line that was written of it.

Owns: the views whose numbers fit the format, the reading of a list from what was written of its
elements, the reading of an image and of a view, that a view is written on one line, and that a
line determines the view.
-/

namespace TapeMachine

/-! ## Fields -/

namespace Json

theorem natural?_natural {value : Nat} (fits : value < 0x10000000000000000) :
    (natural value).natural? = some value := by
  rw [natural, natural?, Text.decimal?_decimal]
  simp [fits]

/-- A list is read back if each of its elements is. -/
theorem listOf?_array {α : Type} {read : Json → Option α} {write : α → Json} {list : List α}
    (reads : ∀ value ∈ list, read (write value) = some value) :
    (array (list.map write)).listOf? read = some list := by
  rw [listOf?]
  induction list with
  | nil => rfl
  | cons first others inductionHypothesis =>
      have later := inductionHypothesis
        fun value member => reads value (List.mem_cons_of_mem _ member)
      simp [List.mapM_cons, reads first List.mem_cons_self, later]

theorem plain_record {fields : List (String × Json)}
    (plain : ∀ field ∈ fields, field.2.Plain) : (record fields).Plain := by
  refine .object ?_ ?_
  · intro entry member
    obtain ⟨field, -, rfl⟩ := List.mem_map.mp member
    rfl
  · intro entry member
    obtain ⟨field, present, rfl⟩ := List.mem_map.mp member
    exact plain field present

theorem plain_list {α : Type} {write : α → Json} (plain : ∀ value, (write value).Plain)
    (list : List α) : (array (list.map write)).Plain := by
  refine .array ?_
  intro element member
  obtain ⟨value, -, rfl⟩ := List.mem_map.mp member
  exact plain value

end Json

/-! ## Images and views -/

/-- Positions are written with 64 bits. -/
def TapeImage.Fits (image : TapeImage) : Prop :=
  ∀ pointer ∈ image.pointers, pointer < 0x10000000000000000

/-- The cursor and all positions are written with 64 bits. -/
structure View.Fits (view : View) : Prop where
  identifier : view.identifier < 0x10000000000000000
  pointers : view.image.Fits

theorem View.Fits.withLast {view : View} (fits : view.Fits) (last : Bool) :
    (view.withLast last).Fits :=
  ⟨fits.identifier, fits.pointers⟩

theorem TapeImage.plain_toJson (image : TapeImage) : image.toJson.Plain := by
  refine Json.plain_record ?_
  simp [Json.plain_list Json.Plain.string, Json.plain_list Json.Plain.natural,
    Json.plain_list Json.Plain.boolean]

theorem TapeImage.ofJson?_toJson {image : TapeImage} (fits : image.Fits) :
    TapeImage.ofJson? image.toJson = some image := by
  have memory : (Json.array (image.memory.map Json.ofString)).listOf? Json.string? =
      some image.memory :=
    Json.listOf?_array fun _ _ => rfl
  have pointers : (Json.array (image.pointers.map Json.natural)).listOf? Json.natural? =
      some image.pointers :=
    Json.listOf?_array fun pointer member => Json.natural?_natural (fits pointer member)
  have alive : (Json.array (image.alive.map Json.boolean)).listOf? Json.boolean? =
      some image.alive :=
    Json.listOf?_array fun _ _ => rfl
  simp [toJson, ofJson?, Json.record, Json.fields?, Json.member?, memory, pointers, alive]

namespace View

theorem plain_toJson (view : View) : view.toJson.Plain := by
  refine Json.plain_record ?_
  cases view.last <;>
    simp [Json.Plain.natural, view.image.plain_toJson, Json.Plain.boolean]

theorem ofJson?_toJson {view : View} (fits : view.Fits) : ofJson? view.toJson = some view := by
  have identifier := Json.natural?_natural fits.identifier
  have image := TapeImage.ofJson?_toJson fits.pointers
  obtain ⟨_, _, last⟩ := view
  cases last <;> simp [toJson, ofJson?, Json.record, Json.fields?, Json.member?, identifier, image,
      Json.optional?, Json.boolean?]

/-- What is written of a view is one line. -/
theorem noFeed_wire (view : View) : '\n' ∉ view.wire := by
  intro member
  have printable := view.plain_toJson.printable _ member
  contradiction

theorem ofWire?_wire {view : View} (fits : view.Fits) : ofWire? view.wire = some view := by
  rw [ofWire?, wire, Json.parse?_text view.plain_toJson, Option.bind_some, ofJson?_toJson fits]

end View

/-- A view is read back from the line that was written of it, and no other view has that line. -/
theorem wire_round_trip (view : View) (fits : view.Fits) :
    View.ofWire? view.wire = some view ∧
      ∀ other : View, other.Fits → other.wire = view.wire → other = view := by
  have reads := View.ofWire?_wire fits
  refine ⟨reads, ?_⟩
  intro other fitsOther same
  have readsOther := View.ofWire?_wire fitsOther
  rw [same, reads] at readsOther
  exact (Option.some.inj readsOther).symm

/-- Every way to write a character, lists of unequal lengths, and the largest number. -/
def oddView : View where
  identifier := 0xFFFFFFFFFFFFFFFF
  image :=
    { memory := ["\"\\/", "\x08\x0c\n\r\t", "\x00\x1f\x7f", "", "é→🦀"]
      pointers := [0, 0xFFFFFFFFFFFFFFFF]
      alive := [true, false, true] }
  last := none

theorem wire_round_trip_oddView :
    oddView.Fits ∧ View.ofWire? oddView.wire = some oddView ∧
      (oddView.withLast false).Fits ∧
        View.ofWire? (oddView.withLast false).wire = some (oddView.withLast false) := by
  have fits : oddView.Fits := ⟨by decide, by simp [TapeImage.Fits, oddView]⟩
  have fitsLast := fits.withLast false
  exact ⟨fits, (wire_round_trip oddView fits).1, fitsLast, (wire_round_trip _ fitsLast).1⟩

/-- Nothing is written between the parts, and `last` only when it is set. -/
example :
    (⟨0, ⟨["a", "\n"], [1], [true]⟩, none⟩ : View).wire =
      ("\x7b\"identifier\":0,\"tape\":\x7b\"memory\":[\"a\",\"\\n\"],\"pointers\":[1]," ++
        "\"alive\":[true]\x7d\x7d").toList := by
  decide +kernel

end TapeMachine
