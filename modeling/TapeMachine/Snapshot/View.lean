import TapeMachine.Json.Reader
import TapeMachine.Machine.Step

/-!
Contract: what a cursor sees of its tape, and its JSON form.

Owns: the image of a tape, the view of a cursor, the writing of a view as JSON text, and its
reading.

A record is written as an object with its fields in a fixed order. When read, it may also be an
array of the fields; in an object the order is free, unknown keys are passed over, and a known key
must not come twice. Numbers are plain integers below 2^64.
-/

namespace TapeMachine

/-- The cells of a tape, one text for each, and the position and liveness of every cursor. -/
structure TapeImage where
  memory : List String
  pointers : List Nat
  alive : List Bool
deriving DecidableEq, Repr

/-- The image of a tape together with the cursor that looks at it. -/
structure View where
  identifier : Nat
  image : TapeImage
  /-- Set on what is sent while a program runs: whether it is the last that is sent. -/
  last : Option Bool
deriving DecidableEq, Repr

def TapeImage.contents (image : TapeImage) : String :=
  String.join image.memory

def Tape.image (tape : Tape) : TapeImage where
  memory := tape.cells.toList.map Char.toString
  pointers := tape.slots.toList.map Slot.position
  alive := tape.slots.toList.map Slot.alive

def Tape.view (tape : Tape) (cursor : CursorId) : View :=
  ⟨cursor, tape.image, none⟩

namespace View

def withLast (view : View) (last : Bool) : View :=
  { view with last := some last }

/-- The position of the cursor that looks, if the image has it. -/
def position? (view : View) : Option Nat :=
  view.image.pointers[view.identifier]?

end View

/-! ## Writing -/

def TapeImage.toJson (image : TapeImage) : Json :=
  .record
    [("memory", .array (image.memory.map Json.ofString)),
      ("pointers", .array (image.pointers.map Json.natural)),
      ("alive", .array (image.alive.map Json.boolean))]

/-- The field `last` is written only when it is set. -/
def View.toJson (view : View) : Json :=
  .record
    ([("identifier", .natural view.identifier), ("tape", view.image.toJson)] ++
      match view.last with
      | some last => [("last", .boolean last)]
      | none => [])

def View.wire (view : View) : List Char :=
  view.toJson.text

/-! ## Reading -/

namespace Json

/-- A plain integer that fits 64 bits. -/
def natural? : Json → Option Nat
  | .number digits =>
      match Text.decimal? digits with
      | some value => if value < 0x10000000000000000 then some value else none
      | none => none
  | _ => none

def boolean? : Json → Option Bool
  | .boolean value => some value
  | _ => none

def string? : Json → Option String
  | .string value => value
  | _ => none

/-- An array of which every element can be read. -/
def listOf? {α : Type} (read : Json → Option α) : Json → Option (List α)
  | .array elements => elements.mapM read
  | _ => none

/-- A value that is absent or `null`, or can be read. -/
def optional? {α : Type} (read : Json → Option α) : Option Json → Option (Option α)
  | none => some none
  | some .null => some none
  | some value => (read value).map some

/-- The member with a given name; none when there are several. -/
def member? (members : List (Option String × Json)) (name : String) : Option (Option Json) :=
  match members.filter fun entry => entry.1 = some name with
  | [] => some none
  | [entry] => some (some entry.2)
  | _ => none

/-- The fields of a record in the order of their names: the first ones are required, and those in
`trailing` may be missing. An object may have other members, as long as their names are texts; an
array has no other elements. -/
def fields? (required trailing : List String) : Json → Option (List (Option Json))
  | .object members => do
      let found ← (required ++ trailing).mapM (member? members)
      let named := members.all fun entry => entry.1.isSome
      if named && (found.take required.length).all Option.isSome then some found else none
  | .array elements =>
      if required.length ≤ elements.length ∧
          elements.length ≤ required.length + trailing.length then
        some (elements.map some ++
          List.replicate (required.length + trailing.length - elements.length) none)
      else none
  | _ => none

end Json

def TapeImage.ofJson? (json : Json) : Option TapeImage := do
  match ← json.fields? ["memory", "pointers", "alive"] [] with
  | [some memory, some pointers, some alive] =>
      return ⟨← memory.listOf? Json.string?, ← pointers.listOf? Json.natural?,
        ← alive.listOf? Json.boolean?⟩
  | _ => none

def View.ofJson? (json : Json) : Option View := do
  match ← json.fields? ["identifier", "tape"] ["last"] with
  | [some identifier, some image, last] =>
      return ⟨← identifier.natural?, ← TapeImage.ofJson? image, ← Json.optional? Json.boolean? last⟩
  | _ => none

def View.ofWire? (text : List Char) : Option View :=
  (Json.parse? text).bind View.ofJson?

end TapeMachine
