import TapeMachine.Proofs.Grammar.Language
import TapeMachine.Proofs.Machine.Simulation

/-!
Contract: a program means on a machine what it means without one.

Owns: the agreement of a machine with the structural run of a checked program, from any tape with a
usable cursor and from every tape that holds a text.
-/

namespace TapeMachine

/-- A machine that has not begun tracks the structural run that has not begun. -/
theorem tracks_start (program : Program) (tape : Tape) :
    Tracks program (Machine.start program.executable) ⟨program.statements, tape, false⟩ :=
  .running ⟨rfl, rfl, rfl, rfl, rfl, rfl⟩ (.whole program.main_instructions [])

/-- A machine that runs a checked program ends as the structural run does, and it ends if that
does. -/
theorem terminates_iff_reaches {program : Program} (typed : program.WellTyped)
    (resolved : program.Resolved) {tape : Tape} {cursor : CursorId} (ready : tape.Ready cursor)
    (final : Tape) (halted : Bool) :
    (Machine.start program.executable).Terminates cursor tape final halted ↔
      program.Reaches cursor ⟨program.statements, tape, false⟩ ⟨[], final, halted⟩ := by
  have tracks := tracks_start program tape
  have valid : Pending.Valid program cursor ⟨program.statements, tape, false⟩ :=
    ⟨Program.admits_of_mem_statements typed resolved, ready⟩
  rw [Machine.terminates_iff]
  constructor
  · rintro ⟨count, ends⟩
    exact tracks.reaches_of_ends typed resolved valid ends
  · intro reaches
    exact tracks.ends_of_reaches typed resolved reaches valid

theorem Tape.size_ofText_pos (initial : List Char) (fill : Char) :
    0 < (Tape.ofText initial fill).cells.size := by
  simp [ofText, load, reset]

/-- A text that parses compiles to the code of its tree. On every tape that holds a text, with a
cursor registered anywhere, the machine for this code ends with some tape, halted or not, exactly if
the structural run of the tree ends so. -/
theorem lowering_preserves_meaning (text : List Char) (program : Program)
    (parsed : (Buffer.ofText text).parse.1 = .ok program) (initial : List Char) (fill : Char)
    (start : Int) :
    (Buffer.ofText text).compile = .ok program.executable ∧
      let tape := ((Tape.ofText initial fill).register start).1
      let cursor := ((Tape.ofText initial fill).register start).2
      ∀ final halted,
        (Machine.start program.executable).Terminates cursor tape final halted ↔
          program.Reaches cursor ⟨program.statements, tape, false⟩ ⟨[], final, halted⟩ := by
  have accepted := accepted_of_parse parsed
  constructor
  · rw [Buffer.compile_eq, parsed]
    rfl
  · intro tape cursor final halted
    exact terminates_iff_reaches accepted.typed accepted.resolved
      (Tape.ready_register _ (Tape.size_ofText_pos initial fill) start) final halted

/-- A label body that goes on until it finds another letter, and halts there. -/
def seekText : List Char :=
  "l: \x7b if (= read 'a') \x7b right 2; \x7d else \x7b halt; \x7d goto l; \x7d goto l;".toList

theorem lowering_preserves_meaning_seekText :
    ∃ program final, (Buffer.ofText seekText).parse.1 = .ok program ∧
      program.Reaches 0
        ⟨program.statements, ((Tape.ofText "aca".toList '_').register 0).1, false⟩
        ⟨[], final, true⟩ ∧ final.text = "aca__".toList := by
  have ran : ((Buffer.ofText seekText).compile.toOption.map fun executable =>
      let run := (Machine.start executable).run 0 50 ((Tape.ofText "aca".toList '_').register 0).1
      (run.fault, run.machine.hasMoreWork, run.machine.halted, run.tape.text)) =
      some (none, false, true, "aca__".toList) := by
    decide +kernel
  cases parsed : (Buffer.ofText seekText).parse.1 with
  | error error =>
      rw [Buffer.compile_eq, parsed] at ran
      contradiction
  | ok program =>
      obtain ⟨compiled, same⟩ :=
        lowering_preserves_meaning seekText program parsed "aca".toList '_' 0
      simp only [compiled, Except.toOption, Option.map_some, Option.some.injEq,
        Prod.mk.injEq] at ran
      rcases ran with ⟨quiet, idle, halted, text⟩
      exact ⟨program, _, rfl, (same _ true).mp ⟨50, quiet, idle, rfl, halted⟩, text⟩

end TapeMachine
