import TapeMachine.Proofs.Machine.Transition
import TapeMachine.Proofs.Tape.Seated

/-!
Contract: what the steps of a machine do to the cells of an infinite tape.

Owns: the cell that a step reads or writes, the effects on an infinite tape and their agreement with
those on a growing one, and the steps of a machine that is alone on an infinite tape.

A step depends on the tape only if it executes a read instruction. Steps that only pass over a cell
do not touch it.
-/

namespace TapeMachine

/-! ## Accesses -/

/-- A cell that is read or written, with the character that is found or left there. -/
structure Access where
  /-- Cells to the right of the left edge as it was in the beginning. -/
  cell : Int
  glyph : Char
  writes : Bool
deriving DecidableEq, Repr

namespace Machine

/-- Whether the next step reads the cell under the cursor. -/
def reads (machine : Machine) : Bool :=
  machine.walk.isNone && decide (machine.nextInstruction? = some .read)

/-- What the next step does to the cell under the cursor, if it reads or writes it. -/
def accessTo (machine : Machine) (glyph : Except TapeError Char) (cell : Int) : Option Access :=
  match machine.plan glyph, glyph with
  | .ok (_, .write written), _ => some ⟨cell, written, true⟩
  | _, .ok found => if machine.reads then some ⟨cell, found, false⟩ else none
  | _, .error _ => none

/-- A step that does not read is the same whatever the cursor stands on. -/
theorem plan_of_not_reads {machine : Machine} (blind : machine.reads = false)
    (glyph other : Except TapeError Char) : machine.plan glyph = machine.plan other := by
  unfold plan
  split
  next => rfl
  next still =>
    split
    next => rfl
    next instructions active =>
      split
      next => rfl
      next instruction found =>
        have unread : instruction ≠ .read := by
          rintro rfl
          simp [reads, still, nextInstruction?, Machine.instructions, active, found] at blind
        cases instruction with
        | read => exact absurd rfl unread
        | _ => rfl

theorem effect_of_reads {machine next : Machine} {glyph : Except TapeError Char} {effect : Effect}
    (reading : machine.reads = true) (planned : machine.plan glyph = .ok (next, effect)) :
    effect = .none := by
  simp only [reads, Bool.and_eq_true, Option.isNone_iff_eq_none, decide_eq_true_eq] at reading
  obtain ⟨still, instruction⟩ := reading
  cases turns_of_plan planned with
  | walk walking => simp [still] at walking
  | rest _ _ _ nothing => exact nothing
  | exhaust _ _ _ _ nothing => exact nothing
  | execute _ active found outcome =>
      simp only [nextInstruction?, instructions, active, Option.getD_some, found,
        Option.some.injEq] at instruction
      subst instruction
      simp only [execute] at outcome
      split at outcome
      next => exact (Prod.mk.inj (Except.ok.inj outcome)).2.symm
      next => contradiction

theorem accessTo_of_reads {machine next : Machine} {found : Char} {effect : Effect}
    (reading : machine.reads = true) (planned : machine.plan (.ok found) = .ok (next, effect))
    (cell : Int) : machine.accessTo (.ok found) cell = some ⟨cell, found, false⟩ := by
  obtain rfl := effect_of_reads reading planned
  simp [accessTo, planned, reading]

theorem accessTo_of_writes {machine next : Machine} {glyph : Except TapeError Char}
    {written : Char} (planned : machine.plan glyph = .ok (next, .write written)) (cell : Int) :
    machine.accessTo glyph cell = some ⟨cell, written, true⟩ := by
  simp [accessTo, planned]

theorem accessTo_of_not_reads {machine : Machine} (blind : machine.reads = false)
    (found other : Char) (cell : Int) :
    machine.accessTo (.ok found) cell = machine.accessTo (.ok other) cell := by
  simp only [accessTo, blind, plan_of_not_reads blind (.ok found) (.ok other)]
  split <;> simp_all

end Machine

/-! ## Effects -/

namespace Effect

/-- How many cells the effect adds on the left. -/
def prepends (effect : Effect) (tape : Tape) (cursor : CursorId) : Nat :=
  match effect with
  | .walk direction => tape.deficit cursor 1 direction
  | _ => 0

/-- The effect on an infinite tape, for a marker with a coordinate. -/
def onIdeal (effect : Effect) (ideal : InfiniteTape) (cursor : CursorId) (coordinate : Int) :
    InfiniteTape :=
  match effect with
  | .none => ideal
  | .write glyph => { ideal with cell := Function.update ideal.cell coordinate glyph }
  | .walk direction => ideal.moveTo cursor (coordinate + direction.signed 1)

@[simp] theorem perform_fill (effect : Effect) (tape : Tape) (cursor : CursorId) :
    (effect.perform tape cursor).fill = tape.fill := by
  cases effect <;> simp [perform, Tape.put]

@[simp] theorem perform_initial (effect : Effect) (tape : Tape) (cursor : CursorId) :
    (effect.perform tape cursor).initial = tape.initial := by
  cases effect <;> simp [perform, Tape.put]

@[simp] theorem isAlive_perform (effect : Effect) (tape : Tape) (cursor id : CursorId) :
    (effect.perform tape cursor).isAlive id = tape.isAlive id := by
  cases effect <;> simp [perform]

end Effect

namespace Mirrors

variable {tape : Tape} {ideal : InfiniteTape} {cursor : CursorId} {marker : Marker}

theorem read_eq (mirrors : Mirrors tape ideal) (usable : ideal.usable cursor = .ok marker) :
    tape.read cursor = .ok (ideal.cell marker.coordinate) := by
  simp [Tape.read, mirrors.refusal?_eq, usable, mirrors.cell_eq (getElem?_of_usable usable)]

theorem perform (mirrors : Mirrors tape ideal) (usable : ideal.usable cursor = .ok marker)
    (effect : Effect) :
    Mirrors (effect.perform tape cursor) (effect.onIdeal ideal cursor marker.coordinate) := by
  have found := getElem?_of_usable usable
  cases effect with
  | none => exact mirrors
  | write glyph => exact mirrors.put found glyph
  | walk direction => exact mirrors.walk found 1 direction

/-- With the cells that an effect adds on the left, the left edge moves along. -/
theorem added_onIdeal (mirrors : Mirrors tape ideal) (usable : ideal.usable cursor = .ok marker)
    (effect : Effect) {added : Nat} (start : (added : Int) = -ideal.low) :
    ((added + effect.prepends tape cursor : Nat) : Int) =
      -(effect.onIdeal ideal cursor marker.coordinate).low := by
  cases effect with
  | none => exact start
  | write glyph => exact start
  | walk direction =>
      have low := mirrors.low_walk (getElem?_of_usable usable) 1 direction
      simp only [Effect.onIdeal, Effect.prepends, InfiniteTape.moveTo]
      omega

/-- A step on a growing tape is a planned one with its effect, given what the marker stands on. -/
theorem step_eq (mirrors : Mirrors tape ideal) (usable : ideal.usable cursor = .ok marker)
    (machine : Machine) :
    machine.step tape cursor =
      match machine.plan (.ok (ideal.cell marker.coordinate)) with
      | .error fault => (.error fault, tape)
      | .ok (next, effect) => (.ok next, effect.perform tape cursor) := by
  have refusal := mirrors.refusal?_eq cursor
  rw [usable] at refusal
  unfold Machine.step
  rw [mirrors.read_eq usable]
  cases machine.plan (.ok (ideal.cell marker.coordinate)) with
  | error fault => rfl
  | ok planned =>
      obtain ⟨next, effect⟩ := planned
      cases effect <;> simp [Effect.refusal?, refusal]

theorem usable_of_isAlive (mirrors : Mirrors tape ideal) (alive : tape.isAlive cursor = true) :
    ∃ marker, ideal.usable cursor = .ok marker := by
  have refusal := mirrors.refusal?_eq cursor
  rw [(tape.refusal?_eq_none_iff cursor).mpr alive] at refusal
  cases usable : ideal.usable cursor with
  | error error => simp [usable] at refusal
  | ok marker => exact ⟨marker, rfl⟩

end Mirrors

/-- An effect that the cursor allows seats all cursors again. -/
theorem Tape.Seated.perform {tape : Tape} (seated : tape.Seated) {effect : Effect}
    {cursor : CursorId} (accepted : effect.refusal? tape cursor = none) :
    (effect.perform tape cursor).Seated := by
  cases effect with
  | none => exact seated
  | write | walk =>
      have alive := (tape.refusal?_eq_none_iff cursor).mp accepted
      obtain ⟨marker, usable⟩ := seated.mirrors.usable_of_isAlive alive
      exact (seated.mirrors.perform usable _).seated

/-! ## A machine alone -/

/-- A machine takes steps on an infinite tape, each of them with work to do and without a fault, and
a diary is kept of them. -/
inductive Treads (cursor : CursorId) :
    Machine → InfiniteTape → List (Option Access) → Machine → InfiniteTape → Prop where
  | refl {machine : Machine} {ideal : InfiniteTape} : Treads cursor machine ideal [] machine ideal
  | step {machine next last : Machine} {ideal final : InfiniteTape} {marker : Marker}
      {effect : Effect} {diary : List (Option Access)}
      (work : machine.hasMoreWork = true) (usable : ideal.usable cursor = .ok marker)
      (planned : machine.plan (.ok (ideal.cell marker.coordinate)) = .ok (next, effect))
      (others : Treads cursor next (effect.onIdeal ideal cursor marker.coordinate) diary last final) :
      Treads cursor machine ideal
        (machine.accessTo (.ok (ideal.cell marker.coordinate)) marker.coordinate :: diary) last final

end TapeMachine
