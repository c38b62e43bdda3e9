import Mathlib.Algebra.GroupWithZero.Nat
import TapeMachine.Proofs.Machine.Ensemble
import TapeMachine.Proofs.Machine.Progress
import TapeMachine.Viewer.Draw

/-!
Contract: however one goes back and forth in time, what is shown are the states of one run.

Owns: what may happen to a viewer, the snapshots of a run after each number of steps, the viewers
that follow a run, that all keys, play mode and drawing lead from such viewers to such viewers, and
what a viewer announces as its next step.

A snapshot that does not fit is not recorded although the machine has taken its step. Therefore the
history is only looked at as long as the snapshots of all steps so far fit into it; the machine
follows the run in any case.
-/

namespace TapeMachine

/-! ## What is to be seen of a run -/

namespace Machine

variable (machine : Machine) (cursor : CursorId) (tape : Tape)

/-- The snapshot of a run after a number of steps. -/
def seen (count : Nat) : Snapshot :=
  let run := machine.run cursor count tape
  run.machine.capture run.tape cursor

/-- The memory that the snapshots of a run take up to a number of steps. -/
def seenSize (count : Nat) : Nat :=
  ((List.range (count + 1)).map fun index => (machine.seen cursor tape index).estimatedSize).sum

theorem seenSize_succ (count : Nat) :
    machine.seenSize cursor tape (count + 1) =
      machine.seenSize cursor tape count + (machine.seen cursor tape (count + 1)).estimatedSize := by
  simp [seenSize, List.range_succ, Nat.add_assoc]

end Machine

/-! ## Texts of instructions -/

theorem Text.squeeze_cons {glyph : Char} (visible : isBlank glyph = false) (rest : List Char) :
    ∃ others, squeeze (glyph :: rest) = glyph :: others := by
  have begins : ∃ word others, words (glyph :: rest) = (glyph :: word) :: others := by
    simp only [words, visible, Bool.false_eq_true, ↓reduceIte]
    split
    · exact ⟨_, _, rfl⟩
    · split
      · exact ⟨_, _, rfl⟩
      · split <;> exact ⟨_, _, rfl⟩
  obtain ⟨word, others, same⟩ := begins
  cases others <;> simp [squeeze, same, List.intercalate]

/-- The text of an instruction begins with the capital letter of its mnemonic. -/
theorem Instruction.text_eq_cons (instruction : Instruction) :
    ∃ glyph rest, instruction.text = glyph :: rest ∧ Text.isBlank glyph = false ∧
      'A' ≤ glyph ∧ glyph ≤ 'Z' := by
  cases instruction with
  | move direction => cases direction <;> exact ⟨'M', _, rfl, by decide, by decide, by decide⟩
  | push => exact ⟨'P', _, rfl, by decide, by decide, by decide⟩
  | duplicate => exact ⟨'D', _, rfl, by decide, by decide, by decide⟩
  | compare => exact ⟨'C', _, rfl, by decide, by decide, by decide⟩
  | read => exact ⟨'R', _, rfl, by decide, by decide, by decide⟩
  | write => exact ⟨'W', _, rfl, by decide, by decide, by decide⟩
  | jump | jumpIf => exact ⟨'J', _, rfl, by decide, by decide, by decide⟩
  | call => exact ⟨'C', _, rfl, by decide, by decide, by decide⟩
  | halt => exact ⟨'H', _, rfl, by decide, by decide, by decide⟩

/-- The squeezed text of an instruction differs from a text that begins with a small letter. -/
theorem Instruction.squeeze_text_ne (instruction : Instruction) {text : List Char} {glyph : Char}
    (small : 'Z' < glyph) : Text.squeeze instruction.text ≠ glyph :: text := by
  obtain ⟨first, rest, begins, visible, -, capital⟩ := instruction.text_eq_cons
  obtain ⟨others, same⟩ := Text.squeeze_cons visible rest
  intro equal
  rw [begins, same] at equal
  obtain rfl := (List.cons.inj equal).1
  exact absurd small (Nat.not_lt_of_le capital)

/-! ## What may happen to a viewer -/

inductive Happening where
  | press (key : Key)
  /-- It is time for a step of play mode. -/
  | tick
  | draw (width height : Nat)
  /-- The space bar may be pressed again. -/
  | wait

namespace Viewer

def happen (viewer : Viewer) : Happening → Except Fault Viewer
  | .press key => viewer.press key
  | .tick => viewer.tick
  | .draw width height => .ok (viewer.drawn width height)
  | .wait => .ok { viewer with spaceReady := true }

def happenAll : List Happening → Viewer → Except Fault Viewer
  | [], viewer => .ok viewer
  | happening :: others, viewer =>
      match viewer.happen happening with
      | .error fault => .error fault
      | .ok viewer => happenAll others viewer

/-- What happens in a session on a screen. -/
def happeningsOf (width height : Nat) : List Key → List Happening
  | [] => []
  | key :: keys =>
      .draw width height :: .tick :: .press key ::
        if key.quits then [.draw width height] else happeningsOf width height keys

theorem session_eq (width height : Nat) (keys : List Key) (viewer : Viewer) :
    session width height keys viewer = happenAll (happeningsOf width height keys) viewer := by
  induction keys generalizing viewer with
  | nil => rfl
  | cons key keys inductionHypothesis =>
      simp only [session, happeningsOf, happenAll, happen]
      cases (viewer.drawn width height).tick with
      | error fault => rfl
      | ok ticked =>
          simp only
          cases ticked.press key with
          | error fault => rfl
          | ok pressed =>
              cases key.quits with
              | true => rfl
              | false => exact inductionHypothesis pressed

/-! ## Viewers that follow a run -/

/-- A viewer watches the run of a machine. Its own machine and tape are those of the run after the
steps that are counted so far. If the snapshots fit, the history has one of the run for each number
of steps up to there, and one of them is shown. -/
structure Follows (machine : Machine) (tape : Tape) (watched : Watched) (viewer : Viewer) :
    Prop where
  watches : viewer.watched = watched
  settled : viewer.machine.Settled
  live : machine.run watched.cursor viewer.machine.steps tape =
    ⟨viewer.machine, viewer.tape, none, ()⟩
  counted : ∀ count, count ≤ viewer.machine.steps →
    (machine.run watched.cursor count tape).machine.steps = count
  limit : viewer.history.limit = historyLimit
  records : machine.seenSize watched.cursor tape viewer.machine.steps ≤ historyLimit →
    viewer.history.usage = machine.seenSize watched.cursor tape viewer.machine.steps ∧
    viewer.history.snapshots.toList =
      (List.range (viewer.machine.steps + 1)).map (machine.seen watched.cursor tape) ∧
    viewer.position ≤ viewer.machine.steps

namespace Follows

variable {machine : Machine} {tape : Tape} {watched : Watched} {viewer : Viewer}

/-- What is shown besides the snapshot does not matter. -/
theorem of_same (follows : Follows machine tape watched viewer) {other : Viewer}
    (sameWatched : other.watched = viewer.watched) (sameMachine : other.machine = viewer.machine)
    (sameTape : other.tape = viewer.tape) (sameHistory : other.history = viewer.history)
    (samePosition : other.position = viewer.position) : Follows machine tape watched other := by
  rcases follows with ⟨watches, settled, live, counted, limit, records⟩
  rw [← sameMachine, ← sameTape] at live
  rw [← sameMachine] at settled counted
  rw [← sameHistory] at limit
  rw [← sameMachine, ← sameHistory, ← samePosition] at records
  exact ⟨sameWatched.trans watches, settled, live, counted, limit, records⟩

/-- Going to a snapshot that is recorded. -/
theorem goTo (follows : Follows machine tape watched viewer) {position : Nat}
    (recorded : machine.seenSize watched.cursor tape viewer.machine.steps ≤ historyLimit →
      position ≤ viewer.machine.steps) :
    Follows machine tape watched { viewer with position := position } := by
  refine ⟨follows.watches, follows.settled, follows.live, follows.counted, follows.limit, ?_⟩
  intro fits
  obtain ⟨usage, snapshots, -⟩ := follows.records fits
  exact ⟨usage, snapshots, recorded fits⟩

theorem size_eq (follows : Follows machine tape watched viewer)
    (fits : machine.seenSize watched.cursor tape viewer.machine.steps ≤ historyLimit) :
    viewer.history.size = viewer.machine.steps + 1 := by
  obtain ⟨-, snapshots, -⟩ := follows.records fits
  have lengths := congrArg List.length snapshots
  rwa [List.length_map, List.length_range, Array.length_toList] at lengths

theorem canReplay_iff (follows : Follows machine tape watched viewer)
    (fits : machine.seenSize watched.cursor tape viewer.machine.steps ≤ historyLimit) :
    viewer.canReplay = true ↔ viewer.position + 1 ≤ viewer.machine.steps := by
  rw [canReplay, decide_eq_true_eq, follows.size_eq fits, Nat.lt_succ_iff]

theorem start (program : Executable) (tape : Tape) (watched : Watched) :
    Follows (.start program) tape watched (.start watched (.start program) tape) := by
  have unstepped : (Machine.start program).steps = 0 := Machine.settle_steps _
  have single : (Machine.start program).seenSize watched.cursor tape 0 =
      ((Machine.start program).capture tape watched.cursor).estimatedSize := Nat.add_zero _
  refine ⟨rfl, Machine.settled_start program, ?_, ?_, ?_, ?_⟩
  · simp only [Viewer.start, unstepped]
    rfl
  · intro count within
    simp only [Viewer.start, unstepped, Nat.le_zero] at within
    subst within
    exact unstepped
  · simp only [Viewer.start]
    split <;> rfl
  · intro fits
    simp only [Viewer.start, unstepped, single] at fits
    have accepted : (History.empty historyLimit).refusal?
        ((Machine.start program).capture tape watched.cursor) = none := by
      simp [History.refusal?, History.empty, fits]
    simp only [Viewer.start, unstepped, single, accepted, Option.isSome_none]
    simp [History.push, History.empty, Machine.seen, Machine.run, Machine.runWith]

/-- A step of the machine leads to the next state of the run. Its snapshot is recorded and shown if
it fits. -/
theorem runStep (follows : Follows machine tape watched viewer)
    (quiet : ∀ limit, (machine.run watched.cursor limit tape).fault = none)
    (work : viewer.machine.hasMoreWork = true) :
    ∃ next refusal, viewer.runStep = .ok (next, refusal) ∧ Follows machine tape watched next ∧
      next.machine.steps = viewer.machine.steps + 1 ∧
      (machine.seenSize watched.cursor tape (viewer.machine.steps + 1) ≤ historyLimit →
        refusal = none) := by
  rcases follows with ⟨rfl, settled, live, counted, limit, records⟩
  obtain ⟨next, behind, stepped, goesOn⟩ :=
    Machine.step_of_quiet quiet viewer.machine.steps (by rwa [live])
  rw [live] at stepped
  obtain ⟨settledNext, stepsNext⟩ := settled.step work stepped
  have seen : machine.seen viewer.watched.cursor tape (viewer.machine.steps + 1) =
      next.capture behind viewer.watched.cursor := by
    simp only [Machine.seen, goesOn]
  have total := machine.seenSize_succ viewer.watched.cursor tape viewer.machine.steps
  rw [seen] at total
  have liveNext : machine.run viewer.watched.cursor next.steps tape = ⟨next, behind, none, ()⟩ := by
    rw [stepsNext, goesOn]
  have countedNext : ∀ count, count ≤ next.steps →
      (machine.run viewer.watched.cursor count tape).machine.steps = count := by
    intro count within
    rcases Nat.lt_or_eq_of_le within with earlier | rfl
    · exact counted count (by omega)
    · rw [liveNext]
  have accepted :
      machine.seenSize viewer.watched.cursor tape (viewer.machine.steps + 1) ≤ historyLimit →
        viewer.history.refusal? (next.capture behind viewer.watched.cursor) = none := by
    intro fits
    obtain ⟨usage, -, -⟩ := records (by omega)
    rw [History.refusal?, if_neg (by omega)]
  simp only [Viewer.runStep, stepped]
  cases refused : viewer.history.refusal? (next.capture behind viewer.watched.cursor) with
  | some error =>
      have full : ¬ machine.seenSize viewer.watched.cursor tape (viewer.machine.steps + 1) ≤
          historyLimit := by
        intro fits
        simp [accepted fits] at refused
      refine ⟨_, _, rfl, ⟨rfl, settledNext, liveNext, countedNext, limit, ?_⟩, stepsNext, ?_⟩
      · intro fits
        rw [stepsNext] at fits
        exact absurd fits full
      · intro fits
        exact absurd fits full
  | none =>
      refine ⟨_, _, rfl, ⟨rfl, settledNext, liveNext, countedNext, limit, ?_⟩, stepsNext,
        fun _ => rfl⟩
      intro fits
      simp only [stepsNext, History.push] at fits ⊢
      obtain ⟨usage, snapshots, inside⟩ := records (by omega)
      refine ⟨by rw [usage, total], ?_, Nat.succ_le_succ inside⟩
      rw [Array.toList_push, snapshots, ← seen, ← List.map_singleton, ← List.map_append,
        ← List.range_succ]

theorem stopPlaying (follows : Follows machine tape watched viewer) :
    Follows machine tape watched viewer.stopPlaying :=
  follows.of_same rfl rfl rfl rfl rfl

theorem say (follows : Follows machine tape watched viewer) (message : String) :
    Follows machine tape watched (viewer.say message) :=
  follows.of_same rfl rfl rfl rfl rfl

theorem stepBackward (follows : Follows machine tape watched viewer) :
    Follows machine tape watched viewer.stepBackward.1 := by
  unfold Viewer.stepBackward
  split
  · exact follows
  · exact follows.goTo fun fits => Nat.le_trans (Nat.sub_le _ _) (follows.records fits).2.2

theorem pressLeft (follows : Follows machine tape watched viewer) :
    Follows machine tape watched viewer.pressLeft := by
  have back := follows.stopPlaying.stepBackward
  unfold Viewer.pressLeft
  rcases stepped : viewer.stopPlaying.stepBackward with ⟨next, refusal⟩
  rw [stepped] at back
  cases refusal with
  | none => exact back.say _
  | some refusal => exact back.say _

theorem pressBackspace (follows : Follows machine tape watched viewer) :
    Follows machine tape watched viewer.pressBackspace :=
  (follows.stopPlaying.goTo fun _ => Nat.zero_le _).say _

theorem pressSpace (follows : Follows machine tape watched viewer) :
    Follows machine tape watched viewer.pressSpace := by
  unfold Viewer.pressSpace
  split
  · exact follows.of_same rfl rfl rfl rfl rfl
  · exact follows

section Steps

variable (quiet : ∀ limit, (machine.run watched.cursor limit tape).fault = none)

include quiet

/-- A step forward never faults. -/
theorem stepForward (follows : Follows machine tape watched viewer) :
    ∃ next refusal, viewer.stepForward = .ok (next, refusal) ∧
      Follows machine tape watched next := by
  unfold Viewer.stepForward
  cases replays : viewer.canReplay with
  | true =>
      refine ⟨_, _, rfl, follows.goTo ?_⟩
      intro fits
      rwa [follows.canReplay_iff fits] at replays
  | false =>
      cases work : viewer.machine.hasMoreWork with
      | false => exact ⟨viewer, some .finished, by simp [isFinished, work], follows⟩
      | true =>
          obtain ⟨next, refusal, ran, followsNext, -⟩ := follows.runStep quiet work
          exact ⟨next, refusal, by simp [isFinished, work, ran], followsNext⟩

theorem stepMany (follows : Follows machine tape watched viewer) (limit : Nat) :
    ∃ next taken, Viewer.stepMany limit viewer = .ok (next, taken) ∧
      Follows machine tape watched next := by
  induction limit generalizing viewer with
  | zero => exact ⟨viewer, 0, rfl, follows⟩
  | succ limit inductionHypothesis =>
      obtain ⟨next, refusal, stepped, followsNext⟩ := follows.stepForward quiet
      cases refusal with
      | some refusal => exact ⟨next, 0, by simp [Viewer.stepMany, stepped], followsNext⟩
      | none =>
          obtain ⟨last, taken, others, followsLast⟩ := inductionHypothesis followsNext
          exact ⟨last, taken + 1, by simp [Viewer.stepMany, stepped, others], followsLast⟩

theorem pressRight (follows : Follows machine tape watched viewer) :
    ∃ next, viewer.pressRight = .ok next ∧ Follows machine tape watched next := by
  obtain ⟨next, refusal, stepped, followsNext⟩ := follows.stopPlaying.stepForward quiet
  unfold Viewer.pressRight
  rw [stepped]
  cases refusal with
  | none => exact ⟨_, rfl, followsNext.say _⟩
  | some refusal => exact ⟨_, rfl, followsNext.say _⟩

theorem pressDigit (follows : Follows machine tape watched viewer) (steps : Nat) :
    ∃ next, viewer.pressDigit steps = .ok next ∧ Follows machine tape watched next := by
  obtain ⟨next, taken, stepped, followsNext⟩ := follows.stopPlaying.stepMany quiet steps
  unfold Viewer.pressDigit
  rw [stepped]
  exact ⟨_, rfl, followsNext.say _⟩

theorem pressEnter (follows : Follows machine tape watched viewer) :
    ∃ next, viewer.pressEnter = .ok next ∧ Follows machine tape watched next := by
  obtain ⟨next, taken, stepped, followsNext⟩ :=
    follows.stopPlaying.stepMany quiet viewer.watched.maxSteps
  unfold Viewer.pressEnter
  rw [stepped]
  exact ⟨_, rfl, followsNext.say _⟩

theorem press (follows : Follows machine tape watched viewer) (key : Key) :
    ∃ next, viewer.press key = .ok next ∧ Follows machine tape watched next := by
  have unmarked : Follows machine tape watched { viewer with isError := false } :=
    follows.of_same rfl rfl rfl rfl rfl
  cases key with
  | left => exact ⟨_, rfl, unmarked.pressLeft⟩
  | right => exact unmarked.pressRight quiet
  | enter => exact unmarked.pressEnter quiet
  | backspace => exact ⟨_, rfl, unmarked.pressBackspace⟩
  | glyph value =>
      simp only [Viewer.press]
      split
      · exact ⟨_, rfl, unmarked.pressSpace⟩
      · split
        · exact unmarked.pressDigit quiet _
        · exact ⟨_, rfl, unmarked⟩
  | up | down | tab | backTab => exact ⟨_, rfl, unmarked.of_same rfl rfl rfl rfl rfl⟩

theorem tick (follows : Follows machine tape watched viewer) :
    ∃ next, viewer.tick = .ok next ∧ Follows machine tape watched next := by
  unfold Viewer.tick
  split
  · obtain ⟨next, refusal, stepped, followsNext⟩ := follows.stepForward quiet
    rw [stepped]
    cases refusal with
    | none => exact ⟨_, rfl, followsNext.of_same rfl rfl rfl rfl rfl⟩
    | some refusal => exact ⟨_, rfl, followsNext.of_same rfl rfl rfl rfl rfl⟩
  · exact ⟨viewer, rfl, follows⟩

theorem happen (follows : Follows machine tape watched viewer) (happening : Happening) :
    ∃ next, viewer.happen happening = .ok next ∧ Follows machine tape watched next := by
  cases happening with
  | press key => exact follows.press quiet key
  | tick => exact follows.tick quiet
  | draw width height => exact ⟨_, rfl, follows.of_same rfl rfl rfl rfl rfl⟩
  | wait => exact ⟨_, rfl, follows.of_same rfl rfl rfl rfl rfl⟩

/-- Whatever happens leads without a fault to a viewer that follows the run. -/
theorem happenAll (follows : Follows machine tape watched viewer) (happenings : List Happening) :
    ∃ next, Viewer.happenAll happenings viewer = .ok next ∧ Follows machine tape watched next := by
  induction happenings generalizing viewer with
  | nil => exact ⟨viewer, rfl, follows⟩
  | cons happening others inductionHypothesis =>
      obtain ⟨next, happened, followsNext⟩ := follows.happen quiet happening
      simp only [Viewer.happenAll, happened]
      exact inductionHypothesis followsNext

end Steps

end Follows

/-! ## What the next step does -/

theorem nextAction_eq_replay_iff (viewer : Viewer) :
    viewer.nextAction = "replay" ↔ viewer.canReplay = true := by
  unfold nextAction
  cases viewer.canReplay with
  | true => simp
  | false =>
      simp only [Bool.false_eq_true, ↓reduceIte, iff_false]
      split
      · decide
      · split
        next instruction _ =>
          intro same
          exact instruction.squeeze_text_ne (by decide) (String.ofList_inj.mp same)
        next => decide

theorem nextAction_eq_nothing_iff {viewer : Viewer} (settled : viewer.machine.Settled) :
    viewer.nextAction = "nothing" ↔
      viewer.canReplay = false ∧ viewer.machine.hasMoreWork = false := by
  have work := settled.hasMoreWork_iff
  unfold nextAction
  cases viewer.canReplay with
  | true => simp
  | false =>
      simp only [Bool.false_eq_true, ↓reduceIte, true_and]
      split
      next moves => simp [work.mpr (.inl moves)]
      next still =>
        split
        next instruction found =>
          have busy := work.mpr (.inr ⟨instruction, found⟩)
          simp only [busy, Bool.true_eq_false, iff_false]
          intro same
          exact instruction.squeeze_text_ne (by decide) (String.ofList_inj.mp same)
        next last =>
          simp only [true_iff]
          rw [← Bool.not_eq_true, work]
          simp [still, last]

section Announcements

variable {machine : Machine} {tape : Tape} {watched : Watched} {viewer : Viewer}
  (follows : Follows machine tape watched viewer)
  (quiet : ∀ limit, (machine.run watched.cursor limit tape).fault = none)

include follows quiet

theorem Follows.replay_iff :
    viewer.nextAction = "replay" ↔ ∃ after, viewer.stepForward = .ok (after, none) ∧
      after.machine = viewer.machine ∧ after.tape = viewer.tape := by
  rw [nextAction_eq_replay_iff]
  constructor
  · intro replays
    exact ⟨{ viewer with position := viewer.position + 1 }, by simp [Viewer.stepForward, replays],
      rfl, rfl⟩
  · rintro ⟨after, stepped, same, -⟩
    cases replays : viewer.canReplay with
    | true => rfl
    | false =>
        cases work : viewer.machine.hasMoreWork with
        | false => simp [Viewer.stepForward, replays, isFinished, work] at stepped
        | true =>
            obtain ⟨next, refusal, ran, -, counted, -⟩ := follows.runStep quiet work
            simp only [Viewer.stepForward, replays, isFinished, work, ran, Bool.false_eq_true,
              Bool.not_true, ↓reduceIte, Except.ok.injEq, Prod.mk.injEq] at stepped
            obtain ⟨rfl, -⟩ := stepped
            rw [same] at counted
            omega

theorem Follows.nothing_iff
    (room : viewer.machine.hasMoreWork = true →
      machine.seenSize watched.cursor tape (viewer.machine.steps + 1) ≤ historyLimit) :
    viewer.nextAction = "nothing" ↔
      ∃ after refusal, viewer.stepForward = .ok (after, some refusal) := by
  rw [nextAction_eq_nothing_iff follows.settled]
  constructor
  · rintro ⟨newest, idle⟩
    exact ⟨viewer, .finished, by simp [Viewer.stepForward, newest, isFinished, idle]⟩
  · rintro ⟨after, refusal, refused⟩
    cases replays : viewer.canReplay with
    | true => simp [Viewer.stepForward, replays] at refused
    | false =>
        cases work : viewer.machine.hasMoreWork with
        | false => exact ⟨rfl, rfl⟩
        | true =>
            obtain ⟨next, outcome, ran, -, -, accepted⟩ := follows.runStep quiet work
            simp [Viewer.stepForward, replays, isFinished, work, ran, accepted (room work)]
              at refused

end Announcements

/-! ## Faithful viewers -/

/-- What a viewer shows is true of the run of a machine. The history has the snapshots after 0, 1, 2
and so on steps up to where the viewer's own machine is, each of them once, and the position says
after how many steps the one on screen was taken. What is announced is what a step forward does: it
replays exactly if no step of the machine is needed, and nothing is left exactly if it is refused,
unless there is work and no room for another snapshot. -/
structure Faithful (machine : Machine) (tape : Tape) (watched : Watched) (viewer : Viewer) :
    Prop where
  recorded : viewer.history.snapshots.toList =
    (List.range (viewer.machine.steps + 1)).map (machine.seen watched.cursor tape)
  counted : ∀ count, count ≤ viewer.machine.steps →
    (machine.seen watched.cursor tape count).steps = count
  inside : viewer.position < viewer.history.size
  shown : viewer.shown? = some (machine.seen watched.cursor tape viewer.position)
  live : machine.run watched.cursor viewer.machine.steps tape =
    ⟨viewer.machine, viewer.tape, none, ()⟩
  latest : viewer.history.last? = some (viewer.machine.capture viewer.tape watched.cursor)
  replays : viewer.nextAction = "replay" ↔ ∃ after, viewer.stepForward = .ok (after, none) ∧
    after.machine = viewer.machine ∧ after.tape = viewer.tape
  ends : (viewer.machine.hasMoreWork = true →
      machine.seenSize watched.cursor tape (viewer.machine.steps + 1) ≤ historyLimit) →
    (viewer.nextAction = "nothing" ↔
      ∃ after refusal, viewer.stepForward = .ok (after, some refusal))

theorem Follows.faithful {machine : Machine} {tape : Tape} {watched : Watched} {viewer : Viewer}
    (follows : Follows machine tape watched viewer)
    (quiet : ∀ limit, (machine.run watched.cursor limit tape).fault = none)
    (fits : machine.seenSize watched.cursor tape viewer.machine.steps ≤ historyLimit) :
    viewer.Faithful machine tape watched := by
  obtain ⟨-, snapshots, inside⟩ := follows.records fits
  have found (index : Nat) (within : index ≤ viewer.machine.steps) :
      viewer.history.snapshots[index]? = some (machine.seen watched.cursor tape index) := by
    rw [← Array.getElem?_toList, snapshots, List.getElem?_map,
      List.getElem?_range (Nat.lt_succ_of_le within), Option.map_some]
  have size := follows.size_eq fits
  constructor
  case recorded => exact snapshots
  case counted => exact follows.counted
  case inside => exact size ▸ Nat.lt_succ_of_le inside
  case shown => exact found _ inside
  case live => exact follows.live
  case latest =>
    have last := found _ (Nat.le_refl _)
    simp only [Machine.seen, follows.live] at last
    rw [History.last?, Array.back?_eq_getElem?, show viewer.history.snapshots.size = _ from size,
      Nat.add_sub_cancel, last]
  case replays => exact follows.replay_iff quiet
  case ends => exact follows.nothing_iff quiet

end Viewer

open Viewer

/-- Whatever happens to a fresh viewer of a program that runs without a fault, nothing faults, and as
long as the snapshots of all steps fit into the history, the viewer is faithful to the run. -/
theorem time_travel_faithful (program : Executable) (tape : Tape) (watched : Watched)
    (quiet : ∀ limit, ((Machine.start program).run watched.cursor limit tape).fault = none)
    (happenings : List Happening) :
    ∃ viewer, happenAll happenings (.start watched (.start program) tape) = .ok viewer ∧
      ((Machine.start program).seenSize watched.cursor tape viewer.machine.steps ≤ historyLimit →
        viewer.Faithful (.start program) tape watched) := by
  obtain ⟨viewer, happened, follows⟩ :=
    (Follows.start program tape watched).happenAll quiet happenings
  exact ⟨viewer, happened, follows.faithful quiet⟩

/-- A program that goes on forever, two cells at a time. -/
def wanderText : List Char :=
  "l: \x7b right 2; goto l; \x7d goto l;".toList

/-- One step, nine more, and back to the fourth of them. -/
def wanderKeys : List Happening :=
  [.press .right, .press (.glyph '9'), .press .left, .press .backspace, .press (.glyph '4'), .tick]

def wanderTape : Tape :=
  ((Tape.ofText "ab".toList '_').register 0).1

def wanderWatched : Watched :=
  ⟨"wander", wanderText, 0, 100⟩

theorem time_travel_faithful_wanderText :
    ∃ program viewer, (Buffer.ofText wanderText).compile = .ok program ∧
      happenAll wanderKeys (.start wanderWatched (.start program) wanderTape) = .ok viewer ∧
      viewer.machine.steps = 10 ∧ viewer.position = 4 ∧
      viewer.Faithful (.start program) wanderTape wanderWatched := by
  have ran : ((Buffer.ofText wanderText).compile.toOption.map fun program =>
      ((happenAll wanderKeys (.start wanderWatched (.start program) wanderTape)).toOption.map
        fun viewer => (viewer.machine.steps, viewer.position),
        decide ((Machine.start program).seenSize 0 wanderTape 10 ≤ historyLimit))) =
      some (some (10, 4), true) := by
    decide +kernel
  cases compiled : (Buffer.ofText wanderText).compile with
  | error error =>
      rw [compiled] at ran
      contradiction
  | ok program =>
      have safe := Machine.safe_start (Ensemble.sound_of_compile compiled)
      have alive : wanderTape.isAlive wanderWatched.cursor = true := by decide
      obtain ⟨viewer, happened, faithful⟩ :=
        time_travel_faithful program wanderTape wanderWatched (safe.run alive) wanderKeys
      simp only [compiled, happened, Except.toOption, Option.map_some, Option.some.injEq,
        Prod.mk.injEq, decide_eq_true_eq] at ran
      rcases ran with ⟨⟨steps, position⟩, fits⟩
      exact ⟨program, viewer, rfl, happened, steps, position, faithful (steps ▸ fits)⟩

end TapeMachine
