import TapeMachine.Proofs.Machine.Transition
import TapeMachine.Proofs.Machine.Traversal

/-!
Contract: how high the stack of a machine gets.

Owns: the jumps to labels of a run, the bound that they and the program set for the stack along
every run, and a program that has no bound of its own.
-/

namespace TapeMachine

namespace Machine

/-! ## Jumps to labels -/

/-- Whether the next step is a jump to a label. -/
def atCall (machine : Machine) : Bool :=
  machine.walk.isNone &&
    match machine.nextInstruction? with
    | some (.call _) => true
    | _ => false

/-- How many of the first steps of a run are jumps to labels. -/
def jumps (cursor : CursorId) : Nat → Machine → Tape → Nat
  | 0, _, _ => 0
  | count + 1, machine, tape =>
      match machine.step tape cursor with
      | (.error _, _) => 0
      | (.ok next, behind) => machine.atCall.toNat + jumps cursor count next behind

theorem atCall_of_found {machine : Machine} {instructions : Array Instruction} {label : String}
    (still : machine.walk = none) (active : machine.active = some instructions)
    (found : instructions[machine.index]? = some (.call label)) : machine.atCall = true := by
  simp [atCall, still, nextInstruction?, Machine.instructions, active, found]

/-! ## The bound along a run -/

/-- A machine runs a program, and its stack is no higher than the heights of the sequence say, above
a floor of values that jumps have left behind. A machine whose run is over has an empty stack. -/
structure Bounded (program : Program) (floor : Nat) (machine : Machine) : Prop where
  runs : machine.program = program.executable
  place : ∀ instructions, machine.active = some instructions →
    Measured program.codeLength program.leftover instructions ∧
      (machine.stack.length : Int) ≤ floor + height instructions machine.index
  emptied : machine.active = none → machine.stack = []

namespace Bounded

variable {program : Program} {floor : Nat} {machine next : Machine}

theorem length_le (bounded : Bounded program floor machine) :
    machine.stack.length ≤ program.codeLength + floor := by
  cases active : machine.active with
  | none => simp [bounded.emptied active]
  | some instructions =>
      obtain ⟨measured, low⟩ := bounded.place instructions active
      have top := height_le_size instructions machine.index
      have size := measured.size
      omega

theorem mono {higher : Nat} (bounded : Bounded program floor machine) (raised : floor ≤ higher) :
    Bounded program higher machine where
  runs := bounded.runs
  place := fun instructions active => by
    obtain ⟨measured, low⟩ := bounded.place instructions active
    exact ⟨measured, by omega⟩
  emptied := bounded.emptied

theorem finish (same : machine.program = program.executable) :
    Bounded program floor machine.finish where
  runs := same
  place := by simp [Machine.finish]
  emptied := fun _ => rfl

theorem settle (bounded : Bounded program floor machine) : Bounded program floor machine.settle := by
  unfold Machine.settle
  split
  · exact bounded
  · split
    · exact finish bounded.runs
    · split
      · exact finish bounded.runs
      · exact bounded

theorem start (program : Program) : Bounded program 0 (Machine.start program.executable) := by
  refine settle ⟨rfl, ?_, by simp⟩
  rintro instructions active
  obtain rfl := Option.some.inj active
  exact ⟨program.measured_main, by simp⟩

/-- An instruction keeps to the heights of its sequence. If it is a jump to a label, the values above
the floor become part of the floor. -/
theorem execute {instructions : Array Instruction} {instruction : Instruction}
    (bounded : Bounded program floor machine) (active : machine.active = some instructions)
    (found : instructions[machine.index]? = some instruction)
    (proceeds : machine.Proceeds instruction next) :
    (∃ label, instruction = .call label) ∧ Bounded program (floor + program.leftover) next ∨
      Bounded program floor next := by
  obtain ⟨measured, low⟩ := bounded.place instructions active
  obtain ⟨leads, leaves⟩ := measured.even machine.index instruction (by simpa using found)
  rw [Nat.zero_add] at leads leaves
  cases proceeds with
  | @call label body same entry entered =>
      left
      subst entered
      refine ⟨⟨label, same⟩, bounded.runs, ?_, by simp⟩
      rintro others entered
      obtain rfl := Option.some.inj entered
      rw [bounded.runs] at entry
      have within := leaves label same
      refine ⟨Program.measured_label entry, ?_⟩
      rw [height_zero]
      push_cast
      omega
  | halt _ ended =>
      subst ended
      exact .inr (finish bounded.runs)
  | go sameProgram sameActive _ _ stack index =>
      right
      have behind := height_succ found
      have level : height instructions next.index = height instructions (machine.index + 1) := by
        rcases index with following | target
        · rw [following]
        · exact leads _ target
      refine ⟨sameProgram.trans bounded.runs, ?_, by simp [sameActive, active]⟩
      rintro others entered
      obtain rfl := Option.some.inj (entered.symm.trans (sameActive.trans active))
      refine ⟨measured, ?_⟩
      rw [level, behind, Instruction.rise]
      omega

/-- A step raises the floor only if it is a jump to a label, and then by no more than the program's
jumps can leave behind. -/
theorem step {tape behind : Tape} {cursor : CursorId} (bounded : Bounded program floor machine)
    (stepped : machine.step tape cursor = (.ok next, behind)) :
    Bounded program (floor + program.leftover * machine.atCall.toNat) next := by
  have raised : floor ≤ floor + program.leftover * machine.atCall.toNat := Nat.le_add_right _ _
  obtain ⟨effect, turns, -, -⟩ := step_ok stepped
  cases turns with
  | walk _ same =>
      subst same
      refine (settle ?_).mono raised
      exact ⟨bounded.runs, bounded.place, bounded.emptied⟩
  | rest _ _ same =>
      subst same
      exact bounded.mono raised
  | exhaust _ _ _ same =>
      subst same
      exact finish bounded.runs
  | @execute instructions instruction executed still active found outcome same =>
      subst same
      have counted : Bounded program floor machine.countStep :=
        ⟨bounded.runs, bounded.place, bounded.emptied⟩
      rcases counted.execute active found (proceeds_of_execute outcome) with ⟨⟨label, rfl⟩, after⟩ | after
      · rw [atCall_of_found still active found]
        exact after.settle.mono (by simp)
      · exact after.settle.mono raised

/-- Along a run, the stack stays below the length of the code and what the jumps so far have left. -/
theorem run (bounded : Bounded program floor machine) (cursor : CursorId) (count : Nat)
    (tape : Tape) :
    (machine.run cursor count tape).machine.stack.length ≤
      program.codeLength + floor + program.leftover * jumps cursor count machine tape := by
  induction count generalizing floor machine tape with
  | zero => exact bounded.length_le
  | succ count inductionHypothesis =>
      unfold Machine.run runWith jumps
      have now := bounded.length_le
      cases stepped : machine.step tape cursor with
      | mk outcome behind =>
          split
          · cases outcome with
            | error fault => exact Nat.le_add_right_of_le now
            | ok next =>
                have later := inductionHypothesis (bounded.step stepped) behind
                simp only [Nat.mul_add] at later ⊢
                unfold Machine.run at later
                omega
          · exact Nat.le_add_right_of_le now

end Bounded

end Machine

/-- After any number of steps on any tape, the stack is no higher than the code of the program is
long and, for each jump to a label so far, what the program's jumps can leave behind. If they leave
nothing behind, the length of the code is a bound by itself. -/
theorem stack_le_codeLength_add_leftover (program : Program) (tape : Tape) (cursor : CursorId)
    (count : Nat) :
    ((Machine.start program.executable).run cursor count tape).machine.stack.length ≤
      program.codeLength +
        program.leftover * (Machine.start program.executable).jumps cursor count tape :=
  (Machine.Bounded.start program).run cursor count tape

/-! ## A program without a bound of its own -/

/-- A label body that jumps to itself out of a then branch, for as long as it reads an `a`. -/
def hoardText : List Char :=
  "l: \x7b if (= read 'a') \x7b goto l; \x7d else \x7b ; \x7d \x7d goto l;".toList

def hoardBody : Array Instruction :=
  #[.read, .push (.character 'a'), .compare (.binary .equal), .duplicate, .compare .negation,
    .jumpIf 1, .call "l", .jumpIf 0]

section Rounds

variable {program : Executable} {cursor : CursorId} {tape : Tape} {stack : List Value}

/-- A jump to the label whose body is being executed. -/
theorem traverses_again {code : Array Instruction} {index : Nat} {label : String} {body : Sequence}
    (found : code[index]? = some (.call label)) (entry : program.labels.get? label = some body)
    (same : body.instructions = code) :
    Traverses program cursor code 1 ⟨index, stack, tape⟩ ⟨0, stack, tape⟩ := by
  apply traverses_of_execute .none found rfl
  intro machine stands
  rcases stands with ⟨rfl, active, rfl, rfl, still, running⟩
  simp only [Machine.execute, entry, same]
  exact ⟨_, rfl, rfl, rfl, rfl, rfl, still, running⟩

/-- Once around, the saved condition is left on the stack. -/
theorem traverses_hoardBody {body : Sequence} (entry : program.labels.get? "l" = some body)
    (same : body.instructions = hoardBody) (reads : tape.read cursor = .ok 'a') :
    Traverses program cursor hoardBody 7 ⟨0, stack, tape⟩ ⟨0, .boolean true :: stack, tape⟩ := by
  have tested : Traverses program cursor hoardBody 4 ⟨0, stack, tape⟩
      ⟨4, .boolean true :: .boolean true :: stack, tape⟩ :=
    (((traverses_read rfl reads).trans (traverses_push rfl)).trans
      (traverses_binary rfl rfl)).trans (traverses_duplicate rfl)
  have passes : hoardBody[5]? = some (.jumpIf (1 : Nat)) := rfl
  have entered : Traverses program cursor hoardBody 2
      ⟨4, .boolean true :: .boolean true :: stack, tape⟩ ⟨6, .boolean true :: stack, tape⟩ :=
    (traverses_negate rfl).trans (traverses_jumpIf passes)
  exact (tested.trans entered).trans (traverses_again rfl entry same)

theorem traverses_rounds {body : Sequence} (entry : program.labels.get? "l" = some body)
    (same : body.instructions = hoardBody) (reads : tape.read cursor = .ok 'a') (rounds : Nat) :
    Traverses program cursor hoardBody (7 * rounds) ⟨0, [], tape⟩
      ⟨0, List.replicate rounds (.boolean true), tape⟩ := by
  induction rounds with
  | zero => exact .refl _
  | succ rounds inductionHypothesis =>
      exact inductionHypothesis.trans (traverses_hoardBody entry same reads)

end Rounds

theorem compile_hoardText :
    ((Buffer.ofText hoardText).compile.toOption.map fun executable =>
      (executable.main.instructions, (executable.labels.get? "l").map Sequence.instructions)) =
      some (#[.call "l"], some hoardBody) := by
  decide +kernel

/-- After its rounds a machine for the text has as many values on its stack. -/
theorem stack_hoardText {program : Program}
    (parsed : (Buffer.ofText hoardText).parse.1 = .ok program) {tape : Tape} {cursor : CursorId}
    (reads : tape.read cursor = .ok 'a') (rounds : Nat) :
    ((Machine.start program.executable).run cursor (1 + 7 * rounds) tape).machine.stack =
      List.replicate rounds (.boolean true) := by
  have compiled := compile_hoardText
  simp only [Buffer.compile_eq, parsed, Except.map, Except.toOption, Option.map_some,
    Option.some.injEq, Prod.mk.injEq] at compiled
  obtain ⟨main, label⟩ := compiled
  obtain ⟨body, entry, same⟩ := Option.map_eq_some_iff.mp label
  let first : Machine :=
    ⟨program.executable, some program.executable.main.instructions, .main, 0, [], none, 0, false⟩
  let second : Machine :=
    ⟨program.executable, some body.instructions, .label "l", 0, [], none, 1, false⟩
  have stands : first.Stands program.executable #[.call "l"] 0 [] :=
    ⟨rfl, congrArg some main, rfl, rfl, rfl, rfl⟩
  have executed : first.countStep.execute (tape.read cursor) (.call "l") = .ok (second, .none) := by
    simp only [Machine.execute, Machine.countStep, first, entry]
    rfl
  have entered : second.Stands program.executable hoardBody 0 [] :=
    ⟨rfl, congrArg some same, rfl, rfl, rfl, rfl⟩
  obtain ⟨last, lastStands, goesOn⟩ := traverses_rounds entry same reads rounds second entered
  have whole : (Machine.start program.executable).Advances cursor tape (1 + 7 * rounds) last.settle
      tape := (stands.advances rfl executed rfl).trans goesOn
  rw [whole.run_eq, lastStands.settle_eq rfl, lastStands.stack]

/-- The text is accepted, and no number bounds the stack on all tapes: on one that holds an `a`, the
stack grows as long as the machine runs. -/
theorem stack_not_bounded_by_program :
    ¬ ∀ text program, (Buffer.ofText text).parse.1 = .ok program →
      ∃ bound, ∀ tape cursor, tape.isAlive cursor = true → ∀ count,
        ((Machine.start program.executable).run cursor count tape).machine.stack.length ≤ bound := by
  intro claimed
  have compiled := compile_hoardText
  rw [Buffer.compile_eq] at compiled
  cases parsed : (Buffer.ofText hoardText).parse.1 with
  | error error =>
      rw [parsed] at compiled
      contradiction
  | ok program =>
      obtain ⟨bound, bounded⟩ := claimed hoardText program parsed
      let tape := ((Tape.ofText ['a'] '_').register 0).1
      have alive : tape.isAlive 0 = true := by decide
      have reads : tape.read 0 = .ok 'a' := rfl
      have within := bounded tape 0 alive (1 + 7 * (bound + 1))
      rw [stack_hoardText parsed reads, List.length_replicate] at within
      omega

end TapeMachine
