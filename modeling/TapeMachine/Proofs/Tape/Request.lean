import TapeMachine.Proofs.Tape.Growth
import TapeMachine.Tape.Arithmetic

/-!
Contract: what clients ask of a tape.

Owns: the requests with their answers, the tape behind a request, on numbers without bound and on
machine words, and which cursors a request leaves alive.
-/

namespace TapeMachine

inductive TapeRequest where
  | register (start : Int)
  | unregister (id : CursorId)
  | move (id : CursorId) (count : Nat) (direction : Direction)
  | read (id : CursorId)
  | write (id : CursorId) (glyph : Char)
  | position (id : CursorId)
deriving DecidableEq, Repr

/-- The cursor that a request uses, for the requests that need a living one. -/
def TapeRequest.uses? : TapeRequest → Option CursorId
  | .register _ => none
  | .unregister _ => none
  | .move id _ _ => some id
  | .read id => some id
  | .write id _ => some id
  | .position id => some id

inductive TapeAnswer where
  | done
  | cursor (id : CursorId)
  | glyph (glyph : Char)
  | position (index : Nat)
  | refused (error : TapeError)
deriving DecidableEq, Repr

namespace Tape

def respond (tape : Tape) : TapeRequest → TapeAnswer × Tape
  | .register start => (.cursor (tape.register start).2, (tape.register start).1)
  | .unregister id => (.done, tape.unregister id)
  | .move id count direction =>
      match tape.move id count direction with
      | .error error => (.refused error, tape)
      | .ok moved => (.done, moved)
  | .read id =>
      match tape.read id with
      | .error error => (.refused error, tape)
      | .ok glyph => (.glyph glyph, tape)
  | .write id glyph =>
      match tape.write id glyph with
      | .error error => (.refused error, tape)
      | .ok written => (.done, written)
  | .position id =>
      match tape.position id with
      | .error error => (.refused error, tape)
      | .ok index => (.position index, tape)

/-- The answers to requests one after the other, and the tape behind the last. -/
def respondAll (tape : Tape) : List TapeRequest → List TapeAnswer × Tape
  | [] => ([], tape)
  | request :: others =>
      let first := tape.respond request
      let rest := first.2.respondAll others
      (first.1 :: rest.1, rest.2)

/-- No request takes cells away. -/
theorem size_le_respond (tape : Tape) (request : TapeRequest) :
    tape.cells.size ≤ (tape.respond request).2.cells.size := by
  have walked (tape : Tape) (id : CursorId) (count : Nat) (direction : Direction) :
      tape.cells.size ≤ (tape.walk id count direction).cells.size := by
    rw [size_walk]
    omega
  cases request with
  | register start => exact walked { tape with slots := tape.slots.push ⟨0, true⟩ } _ _ _
  | unregister id => exact Nat.le_refl _
  | move id count direction =>
      simp only [respond, move]
      cases tape.refusal? id with
      | none => exact walked tape id count direction
      | some error => exact Nat.le_refl _
  | read id =>
      simp only [respond, read]
      cases tape.refusal? id <;> exact Nat.le_refl _
  | write id glyph =>
      simp only [respond, write]
      cases tape.refusal? id with
      | none => simp [put]
      | some error => exact Nat.le_refl _
  | position id =>
      simp only [respond, position]
      cases tape.refusal? id <;> exact Nat.le_refl _

theorem size_le_respondAll (tape : Tape) (requests : List TapeRequest) :
    tape.cells.size ≤ (tape.respondAll requests).2.cells.size := by
  induction requests generalizing tape with
  | nil => exact Nat.le_refl _
  | cons request others inductionHypothesis =>
      exact Nat.le_trans (tape.size_le_respond request) (inductionHypothesis _)

/-- A request that uses a cursor is refused if its use is, and changes nothing then. -/
theorem respond_refused {tape : Tape} {request : TapeRequest} {error : TapeError}
    (refused : request.uses?.bind tape.refusal? = some error) :
    tape.respond request = (.refused error, tape) := by
  cases request <;> simp only [TapeRequest.uses?, Option.bind_some, Option.bind_none, reduceCtorEq]
    at refused <;> simp [respond, move, read, write, position, refused]

/-- No request but the one to unregister it kills a cursor. -/
theorem isAlive_respond {tape : Tape} {id : CursorId} (alive : tape.isAlive id = true)
    {request : TapeRequest} (spares : request ≠ .unregister id) :
    (tape.respond request).2.isAlive id = true := by
  cases request with
  | register start => simp [respond, isAlive_register, alive]
  | unregister other =>
      have different : other ≠ id := fun same => spares (congrArg TapeRequest.unregister same)
      simp [respond, isAlive_unregister, alive, different]
  | move other count direction =>
      simp only [respond, move]
      cases tape.refusal? other <;> simp [alive]
  | read other =>
      simp only [respond, read]
      cases tape.refusal? other <;> exact alive
  | write other glyph =>
      simp only [respond, write]
      cases tape.refusal? other <;> simp [alive]
  | position other =>
      simp only [respond, position]
      cases tape.refusal? other <;> exact alive

end Tape

/-! ## Requests to a program -/

/-- The answer to the use of a cursor and the tape behind it, if the program goes on. -/
def Tape.answer {α : Type} (tape : Tape) (outcome : ExceptT TapeError Option α)
    (used : α → TapeAnswer × Tape) : Option (TapeAnswer × Tape) :=
  outcome.run.map fun
    | .error error => (.refused error, tape)
    | .ok value => used value

theorem Tape.answer_refused {α : Type} {tape : Tape} {id : CursorId} {error : TapeError}
    (refused : tape.refusal? id = some error) (outcome : Option α)
    (used : α → TapeAnswer × Tape) :
    tape.answer (tape.permit id outcome) used = some (.refused error, tape) := by
  simp [answer, permit, refused]

theorem Tape.answer_permitted {α : Type} {tape : Tape} {id : CursorId}
    (permitted : tape.refusal? id = none) (outcome : Option α) (used : α → TapeAnswer × Tape) :
    tape.answer (tape.permit id outcome) used = outcome.map used := by
  simp [answer, permit, permitted, Function.comp_def]

namespace Arithmetic

def respond (arithmetic : Arithmetic) (tape : Tape) : TapeRequest → Option (TapeAnswer × Tape)
  | .register start =>
      (arithmetic.register tape start).map fun registered =>
        (.cursor registered.2, registered.1)
  | .unregister id => some (.done, tape.unregister id)
  | .move id count direction =>
      tape.answer (arithmetic.move tape id count direction) fun moved => (.done, moved)
  | .read id => tape.answer (tape.readCell id) fun glyph => (.glyph glyph, tape)
  | .write id glyph => tape.answer (tape.writeCell id glyph) fun written => (.done, written)
  | .position id =>
      tape.answer (tape.permit id (some (tape.slotPosition id))) fun index =>
        (.position index, tape)

def respondAll (arithmetic : Arithmetic) (tape : Tape) :
    List TapeRequest → Option (List TapeAnswer × Tape)
  | [] => some ([], tape)
  | request :: others => do
      let first ← arithmetic.respond tape request
      (arithmetic.respondAll first.2 others).map fun rest => (first.1 :: rest.1, rest.2)

theorem respond_refused (arithmetic : Arithmetic) {tape : Tape} {request : TapeRequest}
    {error : TapeError} (refused : request.uses?.bind tape.refusal? = some error) :
    arithmetic.respond tape request = some (.refused error, tape) := by
  cases request <;> simp only [TapeRequest.uses?, Option.bind_some, Option.bind_none, reduceCtorEq]
    at refused <;> exact Tape.answer_refused refused _ _

end Arithmetic

namespace Tape.Ready

variable {tape : Tape} {id : CursorId}

/-- A living cursor on a cell reads its character. -/
theorem respond_read (ready : tape.Ready id) (arithmetic : Arithmetic) :
    ∃ glyph, arithmetic.respond tape (.read id) = some (.glyph glyph, tape) ∧
      tape.respond (.read id) = (.glyph glyph, tape) ∧
      tape.cells[tape.slotPosition id]? = some glyph := by
  have refusal := ready.refusal?_eq_none
  have cell := Array.getElem?_eq_getElem (show tape.slotPosition id < _ from ready.onTape)
  refine ⟨_, ?_, ?_, cell⟩
  · rw [Arithmetic.respond, readCell, answer_permitted refusal, cell, Option.map_some]
  · simp [respond, Tape.read, refusal, cell]

/-- A living cursor on a cell writes into it. -/
theorem respond_write (ready : tape.Ready id) (arithmetic : Arithmetic) (glyph : Char) :
    ∃ written, arithmetic.respond tape (.write id glyph) = some (.done, written) ∧
      tape.respond (.write id glyph) = (.done, written) ∧
      written.cells[tape.slotPosition id]? = some glyph := by
  have onTape : tape.slotPosition id < tape.cells.size := ready.onTape
  refine ⟨tape.put id glyph, ?_, ?_, ?_⟩
  · rw [Arithmetic.respond, writeCell, answer_permitted ready.refusal?_eq_none, if_pos onTape,
      Option.map_some]
  · simp only [respond, ready.write_eq]
  · simp [Tape.put, onTape]

end Tape.Ready

end TapeMachine
