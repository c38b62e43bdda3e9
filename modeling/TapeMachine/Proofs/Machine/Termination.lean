import Mathlib.Algebra.BigOperators.Group.List.Basic
import Mathlib.Data.List.Nodup
import TapeMachine.Proofs.Code.Onward
import TapeMachine.Proofs.Grammar.Language
import TapeMachine.Proofs.Machine.Safety
import TapeMachine.Proofs.Machine.StepCount

/-!
Contract: programs without loops come to an end.

Owns: executables whose calls lead down a ranking of their routines, the steps that a machine still
takes at most, and a bound for the runs of programs without loops.

A jump to a label leads to an earlier definition or to the one that it stands in. So without jumps
into their own bodies, and without names that are defined twice, the labels are ranked by the order
of the text.
-/

namespace TapeMachine

/-! ## Expenses -/

/-- The steps that some instructions take at most, if each is executed once. -/
def expense (code : Array Instruction) : Nat :=
  code.size + writtenDistance code.toList

namespace Executable

/-- The main sequence and the bodies of all labels. -/
def sequences (executable : Executable) : List Sequence :=
  executable.main :: executable.labels.entries.map Prod.snd

def instructionCount (executable : Executable) : Nat :=
  (executable.sequences.map fun sequence => sequence.instructions.size).sum

/-- The sum of all distances that the moves of a program are written with. -/
def moveDistance (executable : Executable) : Nat :=
  (executable.sequences.map fun sequence => writtenDistance sequence.instructions.toList).sum

/-- Code leads forward, and a routine can afford what it calls: its budget covers the expense of the
body and the budget of the body. -/
structure Descends (executable : Executable) (budget : Routine → Nat) : Prop where
  onward : ∀ routine code, executable.instructions? routine = some code → Onward code
  calls : ∀ routine code label body, executable.instructions? routine = some code →
    .call label ∈ code → executable.labels.get? label = some body →
    expense body.instructions + budget (.label label) ≤ budget routine

end Executable

/-! ## Steps that are left -/

namespace Machine

/-- The distance of the move that comes next. -/
def drawnCells (machine : Machine) : Nat :=
  match machine.nextInstruction?, machine.stack with
  | some (.move _), .number distance :: _ => distance.natAbs
  | _, _ => 0

/-- The steps that are left at most: the cells of a move in progress and of one that comes next, the
instructions and the distances behind the index, and what the calls among them may take. -/
def effort (budget : Routine → Nat) (machine : Machine) : Nat :=
  machine.pendingCells +
    match machine.active with
    | none => 0
    | some code =>
        machine.drawnCells + (code.size - machine.index) +
          writtenDistance (code.toList.drop machine.index) + budget machine.routine

section Effort

variable {budget : Routine → Nat} {machine next : Machine} {code : Array Instruction}

theorem effort_finish (machine : Machine) : machine.finish.effort budget = 0 := rfl

theorem effort_settle_le (machine : Machine) :
    machine.settle.effort budget ≤ machine.effort budget := by
  rcases machine.settle_cases with same | ended
  · rw [same]
  · rw [ended, effort_finish]
    exact Nat.zero_le _

theorem effort_active (active : machine.active = some code) :
    machine.effort budget = machine.pendingCells + (machine.drawnCells +
      (code.size - machine.index) + writtenDistance (code.toList.drop machine.index) +
        budget machine.routine) := by
  rw [effort, active]

theorem drawnCells_eq_zero (active : machine.active = some code)
    (other : ∀ direction, code[machine.index]? ≠ some (.move direction)) :
    machine.drawnCells = 0 := by
  unfold drawnCells
  split
  next direction distance rest next _ =>
    rw [nextInstruction?, instructions, active] at next
    exact absurd next (other direction)
  next => rfl

theorem drawnCells_move {direction : Direction} {distance : Int} {rest : List Value}
    (active : machine.active = some code)
    (found : code[machine.index]? = some (.move direction))
    (drawn : machine.stack = .number distance :: rest) :
    machine.drawnCells = distance.natAbs := by
  have next : machine.nextInstruction? = some (.move direction) := by
    rw [nextInstruction?, instructions, active]
    exact found
  simp only [drawnCells, next, drawn]

/-- A machine that is not walking executes a routine of an executable whose calls lead down. -/
structure Poised (budget : Routine → Nat) (machine : Machine) (code : Array Instruction) : Prop where
  descends : machine.program.Descends budget
  stored : machine.program.instructions? machine.routine = some code
  active : machine.active = some code
  still : machine.walk = none

namespace Poised

theorem onward (poised : machine.Poised budget code) : Onward code :=
  poised.descends.onward _ _ poised.stored

theorem effort_eq (poised : machine.Poised budget code) :
    machine.effort budget = machine.drawnCells + (code.size - machine.index) +
      writtenDistance (code.toList.drop machine.index) + budget machine.routine := by
  rw [effort_active poised.active, pendingCells_of_still poised.still, Nat.zero_add]

/-- Where execution goes on further back in the same code, less is left. -/
theorem later (poised : machine.Poised budget code) (inside : machine.index < code.size)
    (sameActive : next.active = machine.active) (sameRoutine : next.routine = machine.routine)
    (still : next.walk = none) (later : machine.index < next.index)
    (other : ∀ direction, code[next.index]? ≠ some (.move direction)) :
    next.effort budget < machine.effort budget := by
  have goesOn := sameActive.trans poised.active
  have less := writtenDistance_antitone code.toList (Nat.le_of_lt later)
  rw [poised.effort_eq, effort_active goesOn, sameRoutine, drawnCells_eq_zero goesOn other,
    pendingCells_of_still still]
  omega

/-- Where execution goes on behind an instruction that does not push a number, less is left. -/
theorem behind (poised : machine.Poised budget code) {instruction : Instruction}
    (found : code[machine.index]? = some instruction)
    (other : ∀ distance, instruction ≠ .push (.number distance))
    (sameActive : next.active = machine.active) (sameRoutine : next.routine = machine.routine)
    (still : next.walk = none) (advanced : next.index = machine.index + 1) :
    next.effort budget < machine.effort budget := by
  obtain ⟨inside, -⟩ := Array.getElem?_eq_some_iff.mp found
  apply poised.later inside sameActive sameRoutine still (by omega)
  rw [advanced]
  exact poised.onward.no_move_behind found other

theorem jump (poised : machine.Poised budget code) (jumps : JumpsTo code machine.index next.index)
    (sameActive : next.active = machine.active) (sameRoutine : next.routine = machine.routine)
    (still : next.walk = none) : next.effort budget < machine.effort budget := by
  have inside : machine.index < code.size := by
    obtain ⟨instruction, found, -⟩ := jumps
    exact (Array.getElem?_eq_some_iff.mp found).1
  apply poised.later inside sameActive sameRoutine still (poised.onward.forward _ _ jumps)
  exact fun direction => poised.onward.lands _ _ direction jumps

/-- The number that is pushed in front of a move is counted as written before, and as drawn
behind. -/
theorem push (poised : machine.Poised budget code) {value : Value}
    (found : code[machine.index]? = some (.push value)) :
    ({ machine with stack := value :: machine.stack } : Machine).advance.effort budget <
      machine.effort budget := by
  obtain ⟨inside, -⟩ := Array.getElem?_eq_some_iff.mp found
  by_cases moves : ∃ direction, code[machine.index + 1]? = some (.move direction)
  · obtain ⟨direction, moves⟩ := moves
    obtain ⟨before, distance, same, pushed⟩ := poised.onward.measured _ _ moves
    obtain rfl : machine.index = before := Nat.succ.inj same
    obtain rfl := Instruction.push.inj (Option.some.inj (found.symm.trans pushed))
    have drawn : ({ machine with stack := .number distance :: machine.stack } :
        Machine).advance.drawnCells = distance.natAbs := drawnCells_move poised.active moves rfl
    have written := writtenDistance_move (Array.getElem?_toList.trans pushed)
      (Array.getElem?_toList.trans moves)
    rw [poised.effort_eq, effort_active (by exact poised.active), drawn,
      pendingCells_of_still (by exact poised.still), drawnCells_eq_zero poised.active
        (by simp [pushed]), written]
    simp only [advance]
    omega
  · exact poised.later inside rfl rfl poised.still (Nat.lt_succ_self _) (not_exists.mp moves)

/-- The cells that a move has drawn are walked by this step and by later ones. -/
theorem move (poised : machine.Poised budget code) {direction : Direction} {distance : Int}
    {rest : List Value} (found : code[machine.index]? = some (.move direction))
    (drawn : machine.stack = .number distance :: rest) :
    (({ machine with stack := rest } : Machine).advance.beginMove distance direction).1.effort
      budget < machine.effort budget := by
  obtain ⟨inside, -⟩ := Array.getElem?_eq_some_iff.mp found
  have begun : (({ machine with stack := rest } : Machine).advance.beginMove distance
      direction).1.pendingCells + 1 = max 1 distance.natAbs :=
    pendingCells_beginMove (by exact poised.still) distance direction
  obtain ⟨pending, same, -⟩ :=
    beginMove_fst ({ machine with stack := rest } : Machine).advance distance direction
  rw [same] at begun ⊢
  have goesOn : ({ ({ machine with stack := rest } : Machine).advance with
    walk := pending } : Machine).active = some code := poised.active
  have less := writtenDistance_antitone code.toList (Nat.le_add_right machine.index 1)
  rw [poised.effort_eq, effort_active goesOn, drawnCells_move poised.active found drawn,
    drawnCells_eq_zero goesOn (poised.onward.no_move_behind found (by simp))]
  simp only [advance] at begun ⊢
  omega

/-- A routine can afford what it calls. -/
theorem call (poised : machine.Poised budget code) {label : String} {body : Sequence}
    (found : code[machine.index]? = some (.call label))
    (listed : machine.program.labels.get? label = some body) :
    ({ machine with
      active := some body.instructions, routine := .label label, index := 0 } : Machine).effort
        budget < machine.effort budget := by
  obtain ⟨inside, -⟩ := Array.getElem?_eq_some_iff.mp found
  have affordable :=
    poised.descends.calls _ _ _ _ poised.stored (Array.mem_of_getElem? found) listed
  have entry : Onward body.instructions := poised.descends.onward (.label label) _
    (by simp [Executable.instructions?, Executable.sequence?, listed])
  have begins : ({ machine with
      active := some body.instructions, routine := .label label, index := 0 } : Machine).active =
    some body.instructions := rfl
  rw [poised.effort_eq, effort_active begins, drawnCells_eq_zero begins entry.no_move_first,
    pendingCells_of_still (by exact poised.still)]
  simp only [expense, List.drop_zero] at affordable ⊢
  omega

/-- Executing an instruction leaves less to do. -/
theorem execute (poised : machine.Poised budget code) {glyph : Except TapeError Char}
    {instruction : Instruction} {effect : Effect}
    (found : code[machine.index]? = some instruction)
    (executes : machine.Executes glyph instruction next effect) :
    next.effort budget < machine.effort budget := by
  cases executes with
  | push => exact poised.push found
  | duplicate | compare | read | write | pass =>
      exact poised.behind found (by simp) rfl rfl poised.still rfl
  | move drawn => exact poised.move found drawn
  | jump leads | jumpIf _ leads => exact poised.jump ⟨_, found, leads⟩ rfl rfl poised.still
  | call listed => exact poised.call found listed
  | halt =>
      obtain ⟨inside, -⟩ := Array.getElem?_eq_some_iff.mp found
      rw [effort_finish, poised.effort_eq]
      omega

end Poised

/-- A machine with work to do has at least one step left. -/
theorem effort_pos_of_work (settled : machine.Settled) (work : machine.hasMoreWork = true) :
    0 < machine.effort budget := by
  rw [effort]
  rcases settled.hasMoreWork_iff.mp work with walking | ⟨instruction, next⟩
  · exact Nat.add_pos_left walking _
  · cases active : machine.active with
    | none => simp [nextInstruction?, instructions, active] at next
    | some code =>
        rw [nextInstruction?, instructions, active] at next
        obtain ⟨inside, -⟩ := Array.getElem?_eq_some_iff.mp next
        simp only [Option.getD_some] at inside ⊢
        omega

end Effort

section Runs

variable {program : Executable} {budget : Routine → Nat} {machine next : Machine}
  {tape behind : Tape} {cursor : CursorId}

/-- A step with work to do leaves less to do. -/
theorem Runs.effort_lt (runs : Runs program machine) (descends : program.Descends budget)
    (work : machine.hasMoreWork = true)
    (stepped : machine.step tape cursor = (.ok next, behind)) :
    next.effort budget < machine.effort budget := by
  obtain ⟨effect, turns, -, -⟩ := step_ok stepped
  cases turns with
  | @walk direction remaining walking same =>
      have positive : 0 < remaining := runs.settled.walking _ walking
      subst same
      refine Nat.lt_of_le_of_lt (effort_settle_le _) (Nat.add_lt_add_right ?_ _)
      by_cases several : 1 < remaining <;>
        simp [pendingCells, countStep, walking, several] <;> omega
  | rest still ended => simp [hasMoreWork, still, ended] at work
  | exhaust still active beyond =>
      have inside := runs.settled.ready _ still active
      simp [inside] at beyond
  | @execute code _ _ still active found outcome same =>
      subst same
      have poised : machine.countStep.Poised budget code :=
        ⟨runs.same ▸ descends, runs.same ▸ runs.stored code active, active, still⟩
      exact Nat.lt_of_le_of_lt (effort_settle_le _)
        (poised.execute found (executes_of_execute outcome))

/-- Along steps without a fault, those that have been counted and those that are left at most never
grow together. -/
theorem Runs.steps_add_effort_le (runs : Runs program machine) (descends : program.Descends budget)
    (leads : machine.LeadsTo next) :
    next.steps + next.effort budget ≤ machine.steps + machine.effort budget := by
  induction leads with
  | refl => exact Nat.le_refl _
  | @tail middle last reached step inductionHypothesis =>
      have here := runs.leadsTo reached
      obtain ⟨tape, cursor, behind, stepped⟩ := step
      cases work : middle.hasMoreWork with
      | false =>
          rw [here.settled.step_of_idle work] at stepped
          obtain rfl := Except.ok.inj (Prod.mk.inj stepped).1
          exact inductionHypothesis
      | true =>
          have less := here.effort_lt descends work stepped
          have counted := (here.settled.step work stepped).2
          omega

/-- A run without a fault is over when as many steps have been taken as were left at most. -/
theorem Runs.idle_of_run (runs : Runs program machine) (descends : program.Descends budget)
    {limit : Nat} (enough : machine.effort budget ≤ limit)
    (quiet : (machine.run cursor limit tape).fault = none) :
    (machine.run cursor limit tape).machine.hasMoreWork = false := by
  induction limit generalizing machine tape with
  | zero =>
      cases work : machine.hasMoreWork with
      | false => exact work
      | true => exact absurd (effort_pos_of_work runs.settled work) (Nat.not_lt.mpr enough)
  | succ limit inductionHypothesis =>
      cases work : machine.hasMoreWork with
      | false => rwa [run_of_idle work]
      | true =>
          rcases stepped : machine.step tape cursor with ⟨outcome, behind⟩
          cases outcome with
          | error fault =>
              rw [run_of_fault work stepped] at quiet
              contradiction
          | ok next =>
              rw [run_of_step work stepped] at quiet ⊢
              have less := runs.effort_lt descends work stepped
              exact inductionHypothesis (runs.step ⟨tape, cursor, behind, stepped⟩) (by omega) quiet

/-- All steps of a program are paid by the expense of its main sequence and its budget. -/
theorem effort_start_le (descends : program.Descends budget) :
    (start program).effort budget ≤ expense program.main.instructions + budget .main := by
  have onward : Onward program.main.instructions := descends.onward .main _ rfl
  refine Nat.le_trans (effort_settle_le _) (Nat.le_of_eq ?_)
  rw [effort_active rfl, drawnCells_eq_zero rfl onward.no_move_first]
  simp [expense, pendingCells]

end Runs

end Machine

/-! ## Programs without loops -/

/-- The steps that the body of a label takes at most, if each instruction is executed once. -/
def LabelDefinition.expense (definition : LabelDefinition) : Nat :=
  TapeMachine.expense (Statement.sequence definition.body.statements)

namespace Program

/-- The statements of the top level and those of all label definitions. -/
def bodies (program : Program) : List (List Statement) :=
  program.statements :: program.labels.map fun definition => definition.body.statements

/-- No statement of a program is a loop, at any depth. -/
def LoopFree (program : Program) : Prop :=
  ∀ statements ∈ program.bodies, Statement.LoopFree statements

instance (program : Program) : Decidable program.LoopFree :=
  inferInstanceAs (Decidable (∀ statements ∈ program.bodies, Statement.LoopFree statements))

/-- What the jumps of a routine may cost: from the top level they lead to any label, and from the
body of a label to those that are defined before it. -/
def budget (program : Program) : Routine → Nat
  | .main => (program.labels.map LabelDefinition.expense).sum
  | .label name =>
      ((program.labels.takeWhile fun definition => definition.name ≠ name).map
        LabelDefinition.expense).sum

variable {program : Program}

theorem WellTyped.bodies (typed : program.WellTyped) {statements : List Statement}
    (member : statements ∈ program.bodies) : Statement.AllWellTyped statements := by
  rcases List.mem_cons.mp member with rfl | inside
  · exact Statement.allWellTyped_iff.mpr fun entry present => typed _ (mem_statements.mp present)
  · obtain ⟨definition, present, rfl⟩ := List.mem_map.mp inside
    exact Block.allWellTyped_iff.mp (typed _ (mem_labels.mp present))

/-- The code of a label is that of one of its definitions. -/
theorem split_of_instructions? {name : String} {code : Array Instruction}
    (stored : program.executable.instructions? (.label name) = some code) :
    ∃ before definition after, program.labels = before ++ definition :: after ∧
      definition.name = name ∧ code = Statement.sequence definition.body.statements := by
  rw [instructions?_label] at stored
  obtain ⟨body, found, rfl⟩ := Option.map_eq_some_iff.mp stored
  obtain ⟨before, definition, after, split, named, rfl, -⟩ := body?_eq_some_iff.mp found
  exact ⟨before, definition, after, split, named, rfl⟩

/-- If no name is defined twice, the body of a label can afford what is defined before it. -/
theorem budget_of_split (distinct : (program.labels.map LabelDefinition.name).Nodup)
    {before after : List LabelDefinition} {definition : LabelDefinition}
    (split : program.labels = before ++ definition :: after) :
    program.budget (.label definition.name) = (before.map LabelDefinition.expense).sum := by
  rw [split, List.map_append, List.map_cons, List.nodup_append] at distinct
  have others : ∀ other ∈ before, decide (other.name ≠ definition.name) = true :=
    fun other member =>
      decide_eq_true (distinct.2.2 _ (List.mem_map_of_mem member) _ List.mem_cons_self)
  rw [budget, split, List.takeWhile_append_of_pos others]
  simp

/-- The first definitions of a program cost what each of them may take and more. -/
theorem expense_add_budget_le (distinct : (program.labels.map LabelDefinition.name).Nodup)
    {before after : List LabelDefinition} (split : program.labels = before ++ after)
    {definition : LabelDefinition} (member : definition ∈ before) :
    definition.expense + program.budget (.label definition.name) ≤
      (before.map LabelDefinition.expense).sum := by
  obtain ⟨first, second, rfl⟩ := List.append_of_mem member
  rw [budget_of_split distinct
    (split.trans (List.append_assoc first (definition :: second) after))]
  simp only [List.map_append, List.map_cons, List.sum_append, List.sum_cons]
  omega

/-- Without jumps into their own bodies, and without names that are defined twice, jumps lead to
earlier definitions. -/
theorem Resolved.mem_before {program : Program} (resolved : program.Resolved)
    (outward : ∀ definition ∈ program.labels, definition.name ∉ definition.body.gotos)
    (distinct : (program.labels.map LabelDefinition.name).Nodup)
    {before after : List LabelDefinition} {caller definition : LabelDefinition}
    (split : program.labels = before ++ caller :: after) (member : definition ∈ program.labels)
    (jumps : definition.name ∈ caller.body.gotos) : definition ∈ before := by
  rcases resolved.earlier split jumps with named | own
  · obtain ⟨other, earlier, same⟩ := List.mem_map.mp named
    have present : other ∈ program.labels := by simp [split, earlier]
    exact List.inj_on_of_nodup_map distinct present member same ▸ earlier
  · exact absurd (own ▸ jumps) (outward caller (by simp [split]))

/-- In a program without loops, without jumps into their own bodies, and without names that are
defined twice, the order of the definitions ranks the routines. -/
theorem descends (typed : program.WellTyped) (resolved : program.Resolved)
    (straight : program.LoopFree)
    (outward : ∀ definition ∈ program.labels, definition.name ∉ definition.body.gotos)
    (distinct : (program.labels.map LabelDefinition.name).Nodup) :
    program.executable.Descends program.budget where
  onward routine code stored := by
    have leads {statements : List Statement} (member : statements ∈ program.bodies) :
        Onward (Statement.sequence statements) :=
      Statement.onward (typed.bodies member) (straight _ member)
    cases routine with
    | main =>
        obtain rfl := Option.some.inj (program.instructions?_main.symm.trans stored)
        exact leads List.mem_cons_self
    | label name =>
        obtain ⟨before, definition, after, split, -, rfl⟩ := split_of_instructions? stored
        exact leads (List.mem_cons_of_mem _ (List.mem_map_of_mem (by simp [split])))
  calls routine code label body stored called listed := by
    have entered : program.executable.instructions? (.label label) = some body.instructions := by
      simp [Executable.instructions?, Executable.sequence?, listed]
    obtain ⟨before, definition, after, split, rfl, same⟩ := split_of_instructions? entered
    have member : definition ∈ program.labels := by simp [split]
    rw [same]
    show definition.expense + _ ≤ _
    cases routine with
    | main => exact expense_add_budget_le distinct (List.append_nil _).symm member
    | label name =>
        obtain ⟨front, caller, back, around, rfl, rfl⟩ := split_of_instructions? stored
        have jumps := Statement.mem_gotosOf_of_call called
        rw [← Block.gotos_eq] at jumps
        rw [budget_of_split distinct around]
        exact expense_add_budget_le distinct around
          (resolved.mem_before outward distinct around member jumps)

/-- If no name is defined twice, the main sequence and all that it may call are the whole
executable. -/
theorem expense_add_budget (distinct : (program.labels.map LabelDefinition.name).Nodup) :
    expense program.executable.main.instructions + program.budget .main =
      program.executable.instructionCount + program.executable.moveDistance := by
  have entries : program.executable.labels.entries = (program.labels.map fun definition =>
      (definition.name, Sequence.ofCode definition.body.code)).reverse :=
    NameTable.entries_ofList (by simpa [Function.comp_def] using distinct)
  rw [Executable.instructionCount, Executable.moveDistance, Executable.sequences, entries]
  simp only [List.map_reverse, List.map_map, List.map_cons, List.sum_cons, List.sum_reverse,
    Function.comp_def, Block.instructions_code]
  rw [budget, expense, show LabelDefinition.expense = fun definition =>
    (Statement.sequence definition.body.statements).size +
      writtenDistance (Statement.sequence definition.body.statements).toList from rfl,
    List.sum_map_add]
  omega

end Program

/-- A program without loops, without jumps to a label from its own body, and without names that are
defined twice comes to an end from every tape. It takes at most one step for each of its instructions
and for each cell of the distances that its moves are written with, whatever others do to the tape
between the steps. -/
theorem loop_free_runs_end (text : List Char) (program : Program)
    (parsed : (Buffer.ofText text).parse.1 = .ok program) (straight : program.LoopFree)
    (outward : ∀ definition ∈ program.labels, definition.name ∉ definition.body.gotos)
    (distinct : (program.labels.map LabelDefinition.name).Nodup) :
    ∃ executable, (Buffer.ofText text).compile = .ok executable ∧
      let bound := executable.instructionCount + executable.moveDistance
      (∀ cursor tape,
        let run := (Machine.start executable).run cursor bound tape
        (tape.isAlive cursor = true → run.fault = none) ∧
          (run.fault = none → run.machine.hasMoreWork = false)) ∧
        ∀ machine, (Machine.start executable).LeadsTo machine → machine.steps ≤ bound := by
  have accepted := accepted_of_parse parsed
  have descends := Program.descends accepted.typed accepted.resolved straight outward distinct
  have enough := Machine.effort_start_le descends
  rw [Program.expense_add_budget distinct] at enough
  have runs := Machine.Runs.start program.executable
  refine ⟨program.executable, by rw [Buffer.compile_eq, parsed]; rfl, ?_, ?_⟩
  · intro cursor tape
    refine ⟨fun alive => ?_, fun quiet => runs.idle_of_run descends enough quiet⟩
    have sound := Program.sound_executable accepted.typed accepted.resolved
    exact (Machine.safe_start sound).run alive _
  · intro machine reached
    have counted := runs.steps_add_effort_le descends reached
    have fresh : (Machine.start program.executable).steps = 0 := Machine.settle_steps _
    omega

/-- A move by two cells in the body of a label, and a jump to it. -/
def calledMove : List Char :=
  "l: \x7b right 2; \x7d goto l;".toList

theorem loop_free_runs_end_calledMove :
    ∃ executable, (Buffer.ofText calledMove).compile = .ok executable ∧
      executable.instructionCount + executable.moveDistance = 3 + 2 ∧
      ∀ cursor tape, tape.isAlive cursor = true →
        ((Machine.start executable).run cursor (3 + 2) tape).machine.hasMoreWork = false := by
  have checked : ((Buffer.ofText calledMove).parse.1.toOption.map fun program =>
      (program.executable.instructionCount + program.executable.moveDistance,
        decide program.LoopFree,
        decide (∀ definition ∈ program.labels, definition.name ∉ definition.body.gotos),
        decide (program.labels.map LabelDefinition.name).Nodup)) = some (5, true, true, true) := by
    decide +kernel
  cases parsed : (Buffer.ofText calledMove).parse.1 with
  | error error =>
      rw [parsed] at checked
      contradiction
  | ok program =>
      simp only [parsed, Except.toOption, Option.map_some, Option.some.injEq, Prod.mk.injEq,
        decide_eq_true_eq] at checked
      obtain ⟨bound, straight, outward, distinct⟩ := checked
      obtain ⟨executable, compiled, ends, -⟩ :=
        loop_free_runs_end calledMove program parsed straight outward distinct
      have same : executable = program.executable := by
        rw [Buffer.compile_eq, parsed] at compiled
        exact (Except.ok.inj compiled).symm
      subst same
      rw [bound] at ends
      exact ⟨_, compiled, bound, fun cursor tape alive =>
        (ends cursor tape).2 ((ends cursor tape).1 alive)⟩

end TapeMachine
