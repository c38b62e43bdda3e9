import TapeMachine.Proofs.Viewer.TimeTravel

/-!
Contract: what is reported of a jump to the end.

Owns: what a step forward of a viewer can be, how far many of them lead, and what the key that jumps
to the end reports about the snapshot that is then on screen.

The report asks the machine of the viewer, which stands at the newest snapshot. A jump that only moves
on in the history can stop before that one.
-/

namespace TapeMachine

namespace Viewer

/-! ## Steps forward -/

/-- What a step forward can be: moving on in the history, a refusal at the end of the run, or a step of
the machine, which is recorded and shown if it fits. -/
inductive Advance (viewer : Viewer) : Viewer → Option StepRefusal → Prop where
  | replayed (older : viewer.canReplay = true) :
      Advance viewer { viewer with position := viewer.position + 1 } none
  | ended (newest : viewer.canReplay = false) (finished : viewer.isFinished = true) :
      Advance viewer viewer (some .finished)
  | ran {next : Viewer} (newest : viewer.canReplay = false) (work : viewer.isFinished = false)
      (position : next.position = viewer.position + 1)
      (size : next.history.size = viewer.history.size + 1) : Advance viewer next none
  | unrecorded {next : Viewer} {error : HistoryFull} (newest : viewer.canReplay = false)
      (work : viewer.isFinished = false) (position : next.position = viewer.position)
      (size : next.history.size = viewer.history.size) :
      Advance viewer next (some (.historyFull error))

theorem advance_of_stepForward {viewer next : Viewer} {refusal : Option StepRefusal}
    (stepped : viewer.stepForward = .ok (next, refusal)) : viewer.Advance next refusal := by
  unfold stepForward at stepped
  cases older : viewer.canReplay with
  | true =>
      simp only [older, ↓reduceIte, Except.ok.injEq, Prod.mk.injEq] at stepped
      obtain ⟨rfl, rfl⟩ := stepped
      exact .replayed older
  | false =>
      cases finished : viewer.isFinished with
      | true =>
          simp only [older, finished, Bool.false_eq_true, ↓reduceIte, Except.ok.injEq,
            Prod.mk.injEq] at stepped
          obtain ⟨rfl, rfl⟩ := stepped
          exact .ended older finished
      | false =>
          simp only [older, finished, Bool.false_eq_true, ↓reduceIte, runStep] at stepped
          split at stepped
          · contradiction
          · split at stepped
            · simp only [Except.ok.injEq, Prod.mk.injEq] at stepped
              obtain ⟨rfl, rfl⟩ := stepped
              exact .unrecorded older finished rfl rfl
            · simp only [Except.ok.injEq, Prod.mk.injEq] at stepped
              obtain ⟨rfl, rfl⟩ := stepped
              exact .ran older finished rfl (Array.size_push _)

namespace Advance

variable {viewer next : Viewer} {refusal : Option StepRefusal}

theorem position_of_accepted (advance : viewer.Advance next none) :
    next.position = viewer.position + 1 := by
  cases advance with
  | replayed => rfl
  | ran _ _ position => exact position

theorem position_of_refused {reason : StepRefusal} (advance : viewer.Advance next (some reason)) :
    next.position = viewer.position := by
  cases advance with
  | ended => rfl
  | unrecorded _ _ position => exact position

/-- The newest snapshot is followed by the newest snapshot. -/
theorem newest (advance : viewer.Advance next refusal) (newest : viewer.canReplay = false) :
    next.canReplay = false := by
  cases advance with
  | replayed older => exact absurd older (Bool.not_eq_true _ ▸ newest)
  | ended => exact newest
  | ran _ _ position size | unrecorded _ _ position size =>
      simpa only [canReplay, position, size, Nat.add_lt_add_iff_right] using newest

/-- Only from the newest snapshot of a run that goes on does the machine take a step. -/
theorem machine_or_newest (advance : viewer.Advance next refusal) :
    next.machine = viewer.machine ∨ viewer.isFinished = false ∧ next.canReplay = false := by
  have stays := advance.newest
  cases advance with
  | replayed | ended => exact .inl rfl
  | ran newest work | unrecorded newest work => exact .inr ⟨work, stays newest⟩

end Advance

/-! ## Many steps forward -/

section Jumps

variable {viewer next : Viewer} {limit taken : ℕ}

/-- Many steps are none after a refusal, and else one more than those behind the first one. -/
theorem stepMany_succ (jumped : stepMany (limit + 1) viewer = .ok (next, taken)) :
    (∃ reason, viewer.stepForward = .ok (next, some reason) ∧ taken = 0) ∨
    ∃ between others, viewer.stepForward = .ok (between, none) ∧
      stepMany limit between = .ok (next, others) ∧ taken = others + 1 := by
  rw [stepMany] at jumped
  split at jumped
  · contradiction
  next refused reason stepped =>
    simp only [Except.ok.injEq, Prod.mk.injEq] at jumped
    obtain ⟨rfl, rfl⟩ := jumped
    exact .inl ⟨reason, stepped, rfl⟩
  next between stepped =>
    split at jumped
    · contradiction
    next last others goesOn =>
      simp only [Except.ok.injEq, Prod.mk.injEq] at jumped
      obtain ⟨rfl, rfl⟩ := jumped
      exact .inr ⟨between, others, stepped, goesOn, rfl⟩

theorem position_of_stepMany (jumped : stepMany limit viewer = .ok (next, taken)) :
    next.position = viewer.position + taken ∧ taken ≤ limit := by
  induction limit generalizing viewer taken with
  | zero =>
      obtain ⟨rfl, rfl⟩ := Prod.mk.inj (Except.ok.inj jumped)
      exact ⟨rfl, Nat.le_refl _⟩
  | succ limit inductionHypothesis =>
      obtain ⟨reason, refused, rfl⟩ | ⟨between, others, stepped, goesOn, rfl⟩ :=
        stepMany_succ jumped
      · exact ⟨(advance_of_stepForward refused).position_of_refused, Nat.zero_le _⟩
      · obtain ⟨position, within⟩ := inductionHypothesis goesOn
        have first := (advance_of_stepForward stepped).position_of_accepted
        omega

theorem newest_of_stepMany (jumped : stepMany limit viewer = .ok (next, taken))
    (newest : viewer.canReplay = false) : next.canReplay = false := by
  induction limit generalizing viewer taken with
  | zero =>
      obtain ⟨rfl, rfl⟩ := Prod.mk.inj (Except.ok.inj jumped)
      exact newest
  | succ limit inductionHypothesis =>
      obtain ⟨reason, refused, -⟩ | ⟨between, others, stepped, goesOn, -⟩ := stepMany_succ jumped
      · exact (advance_of_stepForward refused).newest newest
      · exact inductionHypothesis goesOn ((advance_of_stepForward stepped).newest newest)

/-- Only in a run that goes on does the machine take steps, and only if they lead to the newest
snapshot. -/
theorem machine_or_newest_of_stepMany (jumped : stepMany limit viewer = .ok (next, taken)) :
    next.machine = viewer.machine ∨ viewer.isFinished = false ∧ next.canReplay = false := by
  induction limit generalizing viewer taken with
  | zero =>
      obtain ⟨rfl, rfl⟩ := Prod.mk.inj (Except.ok.inj jumped)
      exact .inl rfl
  | succ limit inductionHypothesis =>
      obtain ⟨reason, refused, -⟩ | ⟨between, others, stepped, goesOn, -⟩ := stepMany_succ jumped
      · exact (advance_of_stepForward refused).machine_or_newest
      · rcases (advance_of_stepForward stepped).machine_or_newest with same | ⟨work, newest⟩
        · have later := inductionHypothesis goesOn
          rwa [isFinished, same] at later
        · exact .inr ⟨work, newest_of_stepMany goesOn newest⟩

end Jumps

section Followed

variable {machine : Machine} {tape : Tape} {watched : Watched} {viewer next : Viewer}
  {limit taken : ℕ} (quiet : ∀ limit, (machine.run watched.cursor limit tape).fault = none)

include quiet

/-- A step forward of a viewer that follows a run is refused only at the end of the run, if the
snapshots fit. -/
theorem Follows.over_of_refused (follows : Follows machine tape watched viewer)
    {reason : StepRefusal} (stepped : viewer.stepForward = .ok (next, some reason))
    (fits : machine.seenSize watched.cursor tape next.machine.steps ≤ historyLimit) :
    next.isFinished = true ∧ next.canReplay = false := by
  cases advance_of_stepForward stepped with
  | ended newest finished => exact ⟨finished, newest⟩
  | unrecorded newest work =>
      obtain ⟨after, refusal, ran, -, counted, recorded⟩ :=
        follows.runStep quiet (by simpa [isFinished] using work)
      simp only [Viewer.stepForward, newest, work, Bool.false_eq_true, ↓reduceIte, ran,
        Except.ok.injEq, Prod.mk.injEq] at stepped
      obtain ⟨rfl, rfl⟩ := stepped
      exact absurd (recorded (counted ▸ fits)) (Option.some_ne_none _)

/-- Many steps are fewer than asked for only if they lead to the end of the run. -/
theorem Follows.limit_or_over (follows : Follows machine tape watched viewer)
    (jumped : Viewer.stepMany limit viewer = .ok (next, taken))
    (fits : machine.seenSize watched.cursor tape next.machine.steps ≤ historyLimit) :
    taken = limit ∨ next.isFinished = true ∧ next.canReplay = false := by
  induction limit generalizing viewer taken with
  | zero =>
      obtain ⟨rfl, rfl⟩ := Prod.mk.inj (Except.ok.inj jumped)
      exact .inl rfl
  | succ limit inductionHypothesis =>
      obtain ⟨reason, refused, -⟩ | ⟨between, others, stepped, goesOn, rfl⟩ := stepMany_succ jumped
      · exact .inr (follows.over_of_refused quiet refused fits)
      · obtain ⟨after, refusal, same, followsNext⟩ := follows.stepForward quiet
        obtain ⟨rfl, -⟩ := Prod.mk.inj (Except.ok.inj (stepped.symm.trans same))
        exact (inductionHypothesis followsNext goesOn).imp_left (congrArg (· + 1))

/-! ## Reports -/

/-- The snapshot on screen is the last one that is recorded, and the run is over. -/
def AtEnd (viewer : Viewer) : Prop :=
  viewer.isFinished = true ∧ viewer.position + 1 = viewer.history.size

/-- What is reported of a jump of at most so many steps. The end is reported if it is on screen, but
also if the run was over before and the jump does not reach that far. Else the number of steps is
reported, and it is as large as it may be. -/
structure JumpReported (maxSteps : ℕ) (viewer next : Viewer) : Prop where
  forward : viewer.position ≤ next.position
  within : next.position ≤ viewer.position + maxSteps
  ended : next.message = "Jumped to end" ↔
    next.AtEnd ∨ viewer.isFinished = true ∧ viewer.position + maxSteps < viewer.machine.steps
  stopped : next.message ≠ "Jumped to end" →
    next.message = s!"Stopped after {next.position - viewer.position} steps" ∧
      next.position = viewer.position + maxSteps

omit quiet in
theorem stopped_ne_jumped (taken : ℕ) : s!"Stopped after {taken} steps" ≠ "Jumped to end" := by
  intro same
  have first := congrArg (fun text => text.toList.head?) same
  have begins : (toString "Stopped after ").toList = 'S' :: "topped after ".toList := by decide
  simp [begins] at first

omit quiet in
theorem Follows.atEnd_iff (follows : Follows machine tape watched viewer)
    (fits : machine.seenSize watched.cursor tape viewer.machine.steps ≤ historyLimit) :
    viewer.AtEnd ↔ viewer.isFinished = true ∧ viewer.canReplay = false := by
  have inside := (follows.records fits).2.2
  rw [AtEnd, follows.size_eq fits, ← Bool.not_eq_true, follows.canReplay_iff fits]
  exact and_congr_right fun _ => by omega

omit quiet in
theorem exists_jump (pressed : viewer.press .enter = .ok next) :
    ∃ last taken, Viewer.stepMany viewer.watched.maxSteps
        { viewer with isError := false, playing := false } = .ok (last, taken) ∧
      next = last.say
        (if last.isFinished then "Jumped to end" else s!"Stopped after {taken} steps") := by
  simp only [press, pressEnter] at pressed
  split at pressed
  · contradiction
  next last taken jumped => exact ⟨last, taken, jumped, (Except.ok.inj pressed).symm⟩

theorem Follows.of_stepMany (follows : Follows machine tape watched viewer)
    (jumped : Viewer.stepMany limit viewer = .ok (next, taken)) :
    Follows machine tape watched next := by
  obtain ⟨last, others, same, followsLast⟩ := follows.stepMany quiet limit
  obtain ⟨rfl, -⟩ := Prod.mk.inj (Except.ok.inj (jumped.symm.trans same))
  exact followsLast

/-- After a jump the machine is at the end of the run exactly if this is on screen, or if the machine
was there before and the limit does not reach that far. -/
theorem Follows.isFinished_iff (follows : Follows machine tape watched viewer)
    (jumped : Viewer.stepMany limit viewer = .ok (next, taken))
    (followsNext : Follows machine tape watched next)
    (fits : machine.seenSize watched.cursor tape next.machine.steps ≤ historyLimit) :
    next.isFinished = true ↔
      next.AtEnd ∨ viewer.isFinished = true ∧ viewer.position + limit < viewer.machine.steps := by
  have machines := machine_or_newest_of_stepMany jumped
  rw [followsNext.atEnd_iff fits]
  constructor
  · intro finished
    cases older : next.canReplay with
    | false => exact .inl ⟨finished, rfl⟩
    | true =>
        have same : next.machine = viewer.machine := by simpa [older] using machines
        have all : taken = limit := by simpa [older] using follows.limit_or_over quiet jumped fits
        have position := (position_of_stepMany jumped).1
        have further := (followsNext.canReplay_iff fits).mp older
        rw [isFinished, same] at finished
        rw [position, all, same] at further
        exact .inr ⟨finished, further⟩
  · rintro (⟨finished, -⟩ | ⟨finished, -⟩)
    · exact finished
    · have same : next.machine = viewer.machine := by simpa [finished] using machines
      rwa [isFinished, same]

theorem Follows.jumpReported (follows : Follows machine tape watched viewer)
    (pressed : viewer.press .enter = .ok next)
    (fits : machine.seenSize watched.cursor tape next.machine.steps ≤ historyLimit) :
    JumpReported watched.maxSteps viewer next := by
  rw [← follows.watches]
  obtain ⟨last, taken, jumped, rfl⟩ := exists_jump pressed
  have calm : Follows machine tape watched { viewer with isError := false, playing := false } :=
    follows.of_same rfl rfl rfl rfl rfl
  have followsLast := calm.of_stepMany quiet jumped
  have position : last.position = viewer.position + taken := (position_of_stepMany jumped).1
  have within : taken ≤ viewer.watched.maxSteps := (position_of_stepMany jumped).2
  have finished_iff := calm.isFinished_iff quiet jumped followsLast fits
  constructor
  case forward => exact position ▸ Nat.le_add_right _ _
  case within => exact position ▸ Nat.add_le_add_left within _
  case ended =>
    refine Iff.trans ?_ finished_iff
    cases last.isFinished with
    | true => simp [Viewer.say]
    | false => simpa [Viewer.say] using stopped_ne_jumped taken
  case stopped =>
    cases finished : last.isFinished with
    | true => exact fun other => absurd rfl other
    | false =>
        have all : taken = viewer.watched.maxSteps := by
          simpa [finished] using calm.limit_or_over quiet jumped fits
        simp [Viewer.say, position, all]

end Followed

end Viewer

open Viewer

/-- Whatever happened to a fresh viewer of a program that runs without a fault, jumping to the end
does not fault. As long as the snapshots of all steps fit into the history, the report is either the
number of steps that were taken or the end of the run, and the latter is on screen unless the run
was over before and the limit does not reach that far. -/
theorem jump_to_end_reported (program : Executable) (tape : Tape) (watched : Watched)
    (quiet : ∀ limit, ((Machine.start program).run watched.cursor limit tape).fault = none)
    (happenings : List Happening) :
    ∃ viewer next, happenAll happenings (.start watched (.start program) tape) = .ok viewer ∧
      viewer.press .enter = .ok next ∧
      ((Machine.start program).seenSize watched.cursor tape next.machine.steps ≤ historyLimit →
        JumpReported watched.maxSteps viewer next) := by
  obtain ⟨viewer, happened, follows⟩ :=
    (Follows.start program tape watched).happenAll quiet happenings
  obtain ⟨next, pressed, -⟩ := follows.press quiet .enter
  exact ⟨viewer, next, happened, pressed, follows.jumpReported quiet pressed⟩

/-- A program that takes three steps. -/
def pairText : List Char :=
  "right 2;".toList

def pairTape : Tape :=
  ((Tape.ofText "ab".toList '_').register 0).1

/-- Jumps are two steps long at most. -/
def pairWatched : Watched :=
  ⟨"pair", pairText, 0, 2⟩

theorem jump_to_end_reported_pairText :
    ∃ program viewer next, (Buffer.ofText pairText).compile = .ok program ∧
      happenAll [.press .enter] (.start pairWatched (.start program) pairTape) = .ok viewer ∧
      viewer.press .enter = .ok next ∧ next.message = "Jumped to end" ∧
      JumpReported 2 viewer next := by
  have ran : ((Buffer.ofText pairText).compile.toOption.bind fun program =>
      (happenAll [.press .enter] (.start pairWatched (.start program) pairTape)).toOption.bind
        fun viewer => (viewer.press .enter).toOption.map
          fun next => (next.message,
            decide ((Machine.start program).seenSize 0 pairTape next.machine.steps ≤
              historyLimit))) = some ("Jumped to end", true) := by
    decide +kernel
  cases compiled : (Buffer.ofText pairText).compile with
  | error error => simp [compiled, Except.toOption] at ran
  | ok program =>
      have safe := Machine.safe_start (Ensemble.sound_of_compile compiled)
      have alive : pairTape.isAlive pairWatched.cursor = true := by decide
      obtain ⟨viewer, next, happened, pressed, reported⟩ :=
        jump_to_end_reported program pairTape pairWatched (safe.run alive) [.press .enter]
      simp only [compiled, happened, pressed, Except.toOption, Option.bind_some, Option.map_some,
        Option.some.injEq, Prod.mk.injEq, decide_eq_true_eq] at ran
      exact ⟨program, viewer, next, rfl, happened, pressed, ran.1, reported ran.2⟩

/-- Back at the beginning of a run that is over, a jump of two steps does not reach the last snapshot,
and the end is reported nevertheless. -/
theorem end_reported_before_end_pairText :
    ∃ program viewer, (Buffer.ofText pairText).compile = .ok program ∧
      (∀ limit, ((Machine.start program).run 0 limit pairTape).fault = none) ∧
      happenAll [.press .enter, .press .enter, .press .backspace, .press .enter]
        (.start pairWatched (.start program) pairTape) = .ok viewer ∧
      (Machine.start program).seenSize 0 pairTape viewer.machine.steps ≤ historyLimit ∧
      viewer.message = "Jumped to end" ∧ ¬ viewer.AtEnd := by
  have ran : ((Buffer.ofText pairText).compile.toOption.bind fun program =>
      (happenAll [.press .enter, .press .enter, .press .backspace, .press .enter]
          (.start pairWatched (.start program) pairTape)).toOption.map
        fun viewer => (decide ((Machine.start program).seenSize 0 pairTape viewer.machine.steps ≤
            historyLimit), viewer.message, viewer.position, viewer.history.size)) =
      some (true, "Jumped to end", 2, 4) := by
    decide +kernel
  cases compiled : (Buffer.ofText pairText).compile with
  | error error => simp [compiled, Except.toOption] at ran
  | ok program =>
      have safe := Machine.safe_start (Ensemble.sound_of_compile compiled)
      have alive : pairTape.isAlive 0 = true := by decide
      simp only [compiled, Except.toOption, Option.bind_some, Option.map_eq_some_iff,
        Prod.mk.injEq, decide_eq_true_eq] at ran
      obtain ⟨viewer, happened, fits, message, position, size⟩ := ran
      refine ⟨program, viewer, rfl, safe.run alive, ?_, fits, message, ?_⟩
      · split at happened
        next result same =>
          exact same.trans (congrArg Except.ok (Option.some.inj happened))
        next => contradiction
      · rintro ⟨-, atEnd⟩
        omega

end TapeMachine
