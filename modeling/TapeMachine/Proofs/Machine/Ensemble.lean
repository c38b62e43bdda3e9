import TapeMachine.Proofs.Grammar.Language
import TapeMachine.Proofs.Machine.Safety
import TapeMachine.Proofs.Tape.Request

/-!
Contract: machines that share one tape never fault.

Owns: machines of accepted texts with a cursor each, what may happen to them and to their tape in
any order, what that has to spare, and the absence of faults along every run.

A run begins with any tape and no machine, and machines may be started at any time.
-/

namespace TapeMachine

structure Agent where
  machine : Machine
  cursor : CursorId

structure Ensemble where
  agents : List Agent
  tape : Tape

inductive Action where
  /-- A machine is started for what a text compiles to, none if the text is refused. -/
  | launch (text : List Char) (cursor : CursorId)
  | step (place : Nat)
  | request (request : TapeRequest)
  | load (initial : List Char)
  | reset (resetCursors : Bool)

namespace Ensemble

/-- The fault of an action, if it is a step that faults, and what is there behind the action. -/
def act (ensemble : Ensemble) : Action → Option Fault × Ensemble
  | .launch text cursor =>
      match (Buffer.ofText text).compile with
      | .error _ => (none, ensemble)
      | .ok program =>
          (none, { ensemble with
            agents := ensemble.agents ++ [⟨Machine.start program, cursor⟩] })
  | .step place =>
      match ensemble.agents[place]? with
      | none => (none, ensemble)
      | some agent =>
          match agent.machine.step ensemble.tape agent.cursor with
          | (.error fault, tape) => (some fault, { ensemble with tape := tape })
          | (.ok next, tape) =>
              (none, ⟨ensemble.agents.set place ⟨next, agent.cursor⟩, tape⟩)
  | .request request => (none, { ensemble with tape := (ensemble.tape.respond request).2 })
  | .load initial => (none, { ensemble with tape := ensemble.tape.load initial })
  | .reset resetCursors => (none, { ensemble with tape := ensemble.tape.reset resetCursors })

def actAll (ensemble : Ensemble) : List Action → List Fault × Ensemble
  | [] => ([], ensemble)
  | action :: others =>
      let first := ensemble.act action
      let rest := first.2.actAll others
      (first.1.toList ++ rest.1, rest.2)

/-- An action leaves the machines their cursors: no machine is started with a cursor that is not
alive, and no cursor of a machine is unregistered. -/
def Spares (ensemble : Ensemble) : Action → Prop
  | .launch _ cursor => ensemble.tape.isAlive cursor = true
  | .request request => ∀ agent ∈ ensemble.agents, request ≠ .unregister agent.cursor
  | _ => True

def SparesAll (ensemble : Ensemble) : List Action → Prop
  | [] => True
  | action :: others => ensemble.Spares action ∧ (ensemble.act action).2.SparesAll others

instance (ensemble : Ensemble) (action : Action) : Decidable (ensemble.Spares action) := by
  unfold Spares
  cases action <;> infer_instance

instance decidableSparesAll (ensemble : Ensemble) (actions : List Action) :
    Decidable (ensemble.SparesAll actions) :=
  match actions with
  | [] => inferInstanceAs (Decidable True)
  | action :: others =>
      have := decidableSparesAll (ensemble.act action).2 others
      inferInstanceAs (Decidable (ensemble.Spares action ∧ _))

/-! ## The invariant -/

/-- Every machine is safe and has a living cursor. -/
def Safe (ensemble : Ensemble) : Prop :=
  ∀ agent ∈ ensemble.agents, agent.machine.Safe ∧ ensemble.tape.isAlive agent.cursor = true

theorem Safe.onTape {ensemble : Ensemble} (safe : ensemble.Safe) {tape : Tape}
    (alive : ∀ agent ∈ ensemble.agents, tape.isAlive agent.cursor = true) :
    ({ ensemble with tape := tape } : Ensemble).Safe :=
  fun agent member => ⟨(safe agent member).1, alive agent member⟩

/-- Parsing yields programs whose lowered code agrees with stack maps. -/
theorem sound_of_compile {text : List Char} {program : Executable}
    (compiled : (Buffer.ofText text).compile = .ok program) : program.Sound := by
  obtain ⟨tree, parsed, rfl⟩ := Buffer.parse_of_compile compiled
  have accepted := accepted_of_parse parsed
  exact tree.sound_executable accepted.typed accepted.resolved

/-- An action that leaves the machines their cursors is no fault and keeps the machines safe. -/
theorem Safe.act {ensemble : Ensemble} (safe : ensemble.Safe) {action : Action}
    (spares : ensemble.Spares action) :
    (ensemble.act action).1 = none ∧ (ensemble.act action).2.Safe := by
  cases action with
  | launch text cursor =>
      simp only [Ensemble.act]
      cases compiled : (Buffer.ofText text).compile with
      | error error => exact ⟨rfl, safe⟩
      | ok program =>
          refine ⟨rfl, ?_⟩
          intro agent member
          rcases List.mem_append.mp member with present | started
          · exact safe agent present
          · obtain rfl := List.mem_singleton.mp started
            exact ⟨Machine.safe_start (sound_of_compile compiled), spares⟩
  | step place =>
      simp only [Ensemble.act]
      cases found : ensemble.agents[place]? with
      | none => exact ⟨rfl, safe⟩
      | some agent =>
          obtain ⟨safeMachine, alive⟩ := safe agent (List.mem_of_getElem? found)
          obtain ⟨next, behind, stepped, safeNext, kept⟩ := safeMachine.step alive
          simp only [stepped]
          refine ⟨trivial, ?_⟩
          intro other member
          simp only [kept]
          rcases List.mem_or_eq_of_mem_set member with present | rfl
          · exact safe other present
          · exact ⟨safeNext, alive⟩
  | request request =>
      exact ⟨rfl, safe.onTape fun agent member =>
        Tape.isAlive_respond (safe agent member).2 (spares agent member)⟩
  | load initial =>
      refine ⟨rfl, safe.onTape fun agent member => ?_⟩
      rw [Tape.isAlive_load]
      exact (safe agent member).2
  | reset resetCursors =>
      refine ⟨rfl, safe.onTape fun agent member => ?_⟩
      rw [Tape.isAlive_reset]
      exact (safe agent member).2

/-- Actions that leave the machines their cursors are no faults and keep the machines safe. -/
theorem Safe.actAll {ensemble : Ensemble} (safe : ensemble.Safe) {actions : List Action}
    (spares : ensemble.SparesAll actions) :
    (ensemble.actAll actions).1 = [] ∧ (ensemble.actAll actions).2.Safe := by
  induction actions generalizing ensemble with
  | nil => exact ⟨rfl, safe⟩
  | cons action others inductionHypothesis =>
      rcases spares with ⟨sparesFirst, sparesOthers⟩
      obtain ⟨quiet, safeNext⟩ := safe.act sparesFirst
      obtain ⟨quietOthers, safeLast⟩ := inductionHypothesis safeNext sparesOthers
      refine ⟨?_, safeLast⟩
      simp [Ensemble.actAll, quiet, quietOthers]

end Ensemble

/-! ## Runs -/

/-- Machines of accepted texts that share a tape take their steps without a fault, in any order and
among any other uses of the tape, as long as each of them keeps its cursor. -/
theorem shared_tape_never_faults (tape : Tape) (actions : List Action)
    (spares : (⟨[], tape⟩ : Ensemble).SparesAll actions) :
    ((⟨[], tape⟩ : Ensemble).actAll actions).1 = [] := by
  have safe : (⟨[], tape⟩ : Ensemble).Safe := by simp [Ensemble.Safe]
  exact (safe.actAll spares).1

/-- Two machines with a cursor each, while a third cursor comes and goes. -/
def sharedRun : List Action :=
  [.request (.register 0), .request (.register (-2)),
    .launch "if (= read 'a') \x7b write 'b'; \x7d else \x7b left 2; \x7d right 1;".toList 0,
    .launch "while (!= read 'b') \x7b right 1; \x7d".toList 1,
    .step 0, .step 0, .request (.register 1), .step 1, .step 0, .step 0, .step 1, .step 0,
    .load "aab".toList, .step 1, .step 0, .step 1, .request (.unregister 2), .step 0,
    .request (.write 1 'a'), .step 1, .reset true, .step 0, .step 1]

theorem shared_tape_never_faults_sharedRun :
    (⟨[], .ofText "ab".toList '_'⟩ : Ensemble).SparesAll sharedRun ∧
      ((⟨[], .ofText "ab".toList '_'⟩ : Ensemble).actAll sharedRun).1 = [] := by
  have spares : (⟨[], .ofText "ab".toList '_'⟩ : Ensemble).SparesAll sharedRun := by
    decide +kernel
  exact ⟨spares, shared_tape_never_faults _ _ spares⟩

end TapeMachine
