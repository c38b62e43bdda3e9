import TapeMachine.Proofs.Machine.Ensemble
import TapeMachine.Proofs.Machine.Footprint

/-!
Contract: two machines on one tape that keep out of each other's cells do not notice each other.

Owns: schedules, the diary that a machine keeps of its accesses, the infinite tape that two machines
make together of what each of them makes alone, and that all schedules lead to it.

Cells are told apart by their distance from the left edge at the beginning, because growth on the
left pushes all stored positions along. On the infinite tape there is no such push, and there a step
of one machine and a step of the other touch different things.
-/

namespace TapeMachine

/-! ## Schedules and diaries -/

/-- How many cells the next step adds on the left of a tape. -/
def Agent.prepends (agent : Agent) (tape : Tape) : Nat :=
  match agent.machine.plan (tape.read agent.cursor) with
  | .ok (_, effect) => effect.prepends tape agent.cursor
  | .error _ => 0

namespace Ensemble

/-- The machines take turns; a schedule names the places of those whose turn it is. -/
def follow (ensemble : Ensemble) (schedule : List Nat) : List Fault × Ensemble :=
  ensemble.actAll (schedule.map .step)

/-- The machine at a place has no work left. -/
def Rests (ensemble : Ensemble) (place : Nat) : Prop :=
  ∀ agent, ensemble.agents[place]? = some agent → agent.machine.hasMoreWork = false

/-- The accesses of one machine, one entry for each of its steps, while all of them follow a
schedule. Cells are counted from the left edge as it was before a number of cells was added. -/
def diary (place : Nat) : Nat → Ensemble → List Nat → List (Option Access)
  | _, _, [] => []
  | added, ensemble, turn :: turns =>
      match ensemble.agents[turn]? with
      | none => diary place added ensemble turns
      | some agent =>
          let others :=
            diary place (added + agent.prepends ensemble.tape) (ensemble.act (.step turn)).2 turns
          if turn = place ∧ agent.machine.hasMoreWork = true then
            agent.machine.accessTo (ensemble.tape.read agent.cursor)
              (ensemble.tape.slotPosition agent.cursor - added) :: others
          else others

end Ensemble

/-- No cell that is written in one of two diaries is accessed in the other one. -/
def Separate (one two : List (Option Access)) : Prop :=
  ∀ first second, some first ∈ one → some second ∈ two → first.cell = second.cell →
    first.writes = false ∧ second.writes = false

/-! ## One turn -/

section Turns

variable {ensemble : Ensemble} {place added : Nat} {agent : Agent}

theorem Machine.plan_of_idle {machine : Machine} (idle : machine.hasMoreWork = false)
    (glyph : Except TapeError Char) : machine.plan glyph = .ok (machine, .none) := by
  simp only [hasMoreWork, Bool.or_eq_false_iff, Option.isSome_eq_false_iff,
    Option.isNone_iff_eq_none] at idle
  simp [plan, idle]

theorem Ensemble.act_of_idle (found : ensemble.agents[place]? = some agent)
    (idle : agent.machine.hasMoreWork = false) : ensemble.act (.step place) = (none, ensemble) := by
  have unchanged : ensemble.agents.set place agent = ensemble.agents := by
    obtain ⟨inside, rfl⟩ := List.getElem?_eq_some_iff.mp found
    exact List.set_getElem_self inside
  simp [act, found, Machine.step, Machine.plan_of_idle idle, Effect.refusal?, Effect.perform,
    unchanged]

theorem Agent.prepends_of_idle (idle : agent.machine.hasMoreWork = false) (tape : Tape) :
    agent.prepends tape = 0 := by
  simp [prepends, Machine.plan_of_idle idle, Effect.prepends]

theorem Ensemble.diary_of_idle (found : ensemble.agents[place]? = some agent)
    (idle : agent.machine.hasMoreWork = false) (other : Nat) (turns : List Nat) :
    ensemble.diary other added (place :: turns) = ensemble.diary other added turns := by
  simp [diary, found, act_of_idle found idle, Agent.prepends_of_idle idle, idle]

variable {ideal : InfiniteTape} {marker : Marker} {next : Machine} {effect : Effect}
  (found : ensemble.agents[place]? = some agent) (mirrors : Mirrors ensemble.tape ideal)
  (usable : ideal.usable agent.cursor = .ok marker)

include mirrors usable

theorem Agent.prepends_of_plan
    (planned : agent.machine.plan (.ok (ideal.cell marker.coordinate)) = .ok (next, effect)) :
    agent.prepends ensemble.tape = effect.prepends ensemble.tape agent.cursor := by
  simp only [prepends, mirrors.read_eq usable, planned]

include found

theorem Ensemble.act_of_plan
    (planned : agent.machine.plan (.ok (ideal.cell marker.coordinate)) = .ok (next, effect)) :
    ensemble.act (.step place) =
      (none, ⟨ensemble.agents.set place ⟨next, agent.cursor⟩,
        effect.perform ensemble.tape agent.cursor⟩) := by
  simp only [act, found, mirrors.step_eq usable, planned]

/-- The turn of a machine with work adds an entry to its diary. -/
theorem Ensemble.diary_of_plan (work : agent.machine.hasMoreWork = true)
    (start : (added : Int) = -ideal.low)
    (planned : agent.machine.plan (.ok (ideal.cell marker.coordinate)) = .ok (next, effect))
    (turns : List Nat) :
    ensemble.diary place added (place :: turns) =
      agent.machine.accessTo (.ok (ideal.cell marker.coordinate)) marker.coordinate ::
        (ensemble.act (.step place)).2.diary place
          (added + effect.prepends ensemble.tape agent.cursor) turns := by
  have within := mirrors.within_of_getElem? (Mirrors.getElem?_of_usable usable)
  have cell : (ensemble.tape.slotPosition agent.cursor : Int) - added = marker.coordinate := by
    rw [mirrors.slotPosition_eq (Mirrors.getElem?_of_usable usable)]
    omega
  simp only [diary, found, work, and_self, ↓reduceIte, mirrors.read_eq usable, cell,
    Agent.prepends_of_plan mirrors usable planned]

theorem Ensemble.diary_of_other {other : Nat} (different : place ≠ other)
    (planned : agent.machine.plan (.ok (ideal.cell marker.coordinate)) = .ok (next, effect))
    (turns : List Nat) :
    ensemble.diary other added (place :: turns) =
      (ensemble.act (.step place)).2.diary other
        (added + effect.prepends ensemble.tape agent.cursor) turns := by
  simp only [diary, found, different, false_and, ↓reduceIte,
    Agent.prepends_of_plan mirrors usable planned]

end Turns

/-! ## One machine alone -/

theorem Ensemble.follow_cons (ensemble : Ensemble) (turn : Nat) (turns : List Nat) :
    ensemble.follow (turn :: turns) =
      ((ensemble.act (.step turn)).1.toList ++ ((ensemble.act (.step turn)).2.follow turns).1,
        ((ensemble.act (.step turn)).2.follow turns).2) := rfl

/-- A machine that comes to its end in turns of its own has trodden the infinite tape, with the
accesses of its diary. -/
theorem Ensemble.treads_of_alone {place count added : Nat} {ensemble : Ensemble} {agent : Agent}
    {ideal : InfiniteTape} (found : ensemble.agents[place]? = some agent)
    (mirrors : Mirrors ensemble.tape ideal) (alive : ensemble.tape.isAlive agent.cursor = true)
    (start : (added : Int) = -ideal.low)
    (quiet : (ensemble.follow (List.replicate count place)).1 = [])
    (rests : (ensemble.follow (List.replicate count place)).2.Rests place) :
    ∃ last final,
      Treads agent.cursor agent.machine ideal
        (ensemble.diary place added (List.replicate count place)) last final ∧
      last.hasMoreWork = false ∧
      (ensemble.follow (List.replicate count place)).2.agents =
        ensemble.agents.set place ⟨last, agent.cursor⟩ := by
  obtain ⟨inside, here⟩ := List.getElem?_eq_some_iff.mp found
  induction count generalizing ensemble agent ideal added with
  | zero =>
      refine ⟨agent.machine, ideal, .refl, rests agent found, ?_⟩
      subst here
      exact (List.set_getElem_self inside).symm
  | succ count inductionHypothesis =>
      rw [List.replicate_succ] at quiet rests ⊢
      rw [follow_cons] at quiet rests ⊢
      cases work : agent.machine.hasMoreWork with
      | false =>
          rw [act_of_idle found work] at quiet rests ⊢
          rw [diary_of_idle found work]
          exact inductionHypothesis found mirrors alive start quiet rests inside here
      | true =>
          obtain ⟨marker, usable⟩ := mirrors.usable_of_isAlive alive
          cases planned : agent.machine.plan (.ok (ideal.cell marker.coordinate)) with
          | error fault =>
              simp [act, found, mirrors.step_eq usable, planned] at quiet
          | ok outcome =>
              obtain ⟨next, effect⟩ := outcome
              have startNext := mirrors.added_onIdeal usable effect start
              rw [diary_of_plan found mirrors usable work start planned]
              rw [act_of_plan found mirrors usable planned] at quiet rests ⊢
              obtain ⟨last, final, treads, idle, agents⟩ := inductionHypothesis
                (List.getElem?_set_self inside) (mirrors.perform usable effect) (by simpa using alive)
                startNext quiet rests (by simpa using inside) (by simp)
              refine ⟨last, final, .step work usable planned treads, idle, ?_⟩
              rw [agents, List.set_set]

/-! ## Two machines together -/

/-- An infinite tape is woven from what two machines make of it, each of them alone: outside of the
cells that one of them owns, it is as the other one leaves it, it reaches as far as they do together,
and their markers stand where they stand alone. -/
structure Woven (ownOne ownTwo : Int → Prop) (cursorOne cursorTwo : CursorId)
    (base one two shared : InfiniteTape) : Prop where
  cellOne : ∀ coordinate, ¬ ownTwo coordinate → shared.cell coordinate = one.cell coordinate
  cellTwo : ∀ coordinate, ¬ ownOne coordinate → shared.cell coordinate = two.cell coordinate
  low : shared.low = min one.low two.low
  high : shared.high = max one.high two.high
  markerOne : shared.markers[cursorOne]? = one.markers[cursorOne]?
  markerTwo : shared.markers[cursorTwo]? = two.markers[cursorTwo]?
  others : ∀ id, id ≠ cursorOne → id ≠ cursorTwo → shared.markers[id]? = base.markers[id]?

namespace Woven

variable {ownOne ownTwo : Int → Prop} {cursorOne cursorTwo : CursorId}
  {base one two shared : InfiniteTape}

theorem symm (woven : Woven ownOne ownTwo cursorOne cursorTwo base one two shared) :
    Woven ownTwo ownOne cursorTwo cursorOne base two one shared where
  cellOne := woven.cellTwo
  cellTwo := woven.cellOne
  low := woven.low.trans (Int.min_comm _ _)
  high := woven.high.trans (Int.max_comm _ _)
  markerOne := woven.markerTwo
  markerTwo := woven.markerOne
  others := fun id two one => woven.others id one two

theorem refl (base : InfiniteTape) : Woven ownOne ownTwo cursorOne cursorTwo base base base base where
  cellOne := fun _ _ => rfl
  cellTwo := fun _ _ => rfl
  low := (Int.min_self _).symm
  high := (Int.max_self _).symm
  markerOne := rfl
  markerTwo := rfl
  others := fun _ _ _ => rfl

/-- If no cell is owned by both machines, there is only one way to weave. -/
theorem unique (woven : Woven ownOne ownTwo cursorOne cursorTwo base one two shared)
    {other : InfiniteTape} (wovenOther : Woven ownOne ownTwo cursorOne cursorTwo base one two other)
    (apart : ∀ coordinate, ownOne coordinate → ¬ ownTwo coordinate) : shared = other := by
  have cell : shared.cell = other.cell := by
    funext coordinate
    by_cases owned : ownOne coordinate
    · rw [woven.cellOne _ (apart _ owned), wovenOther.cellOne _ (apart _ owned)]
    · rw [woven.cellTwo _ owned, wovenOther.cellTwo _ owned]
  have markers : shared.markers = other.markers := by
    apply List.ext_getElem?
    intro id
    by_cases isOne : id = cursorOne
    · rw [isOne, woven.markerOne, wovenOther.markerOne]
    · by_cases isTwo : id = cursorTwo
      · rw [isTwo, woven.markerTwo, wovenOther.markerTwo]
      · rw [woven.others id isOne isTwo, wovenOther.others id isOne isTwo]
  have low := woven.low.trans wovenOther.low.symm
  have high := woven.high.trans wovenOther.high.symm
  cases shared
  cases other
  simp_all

/-- What the effect of the first machine makes of its own infinite tape, it makes of the woven one,
if it writes only what the first machine owns and the second one does not. -/
theorem onIdeal (woven : Woven ownOne ownTwo cursorOne cursorTwo base one two shared)
    (distinct : cursorOne ≠ cursorTwo) (effect : Effect) (coordinate : Int)
    (owned : ∀ glyph, effect = .write glyph → ownOne coordinate) :
    Woven ownOne ownTwo cursorOne cursorTwo base (effect.onIdeal one cursorOne coordinate) two
      (effect.onIdeal shared cursorOne coordinate) := by
  cases effect with
  | none => exact woven
  | write glyph =>
      refine ⟨?_, ?_, woven.low, woven.high, woven.markerOne, woven.markerTwo, woven.others⟩
      · intro other foreign
        simp only [Effect.onIdeal, Function.update_apply]
        split
        · rfl
        · exact woven.cellOne other foreign
      · intro other foreign
        have elsewhere : other ≠ coordinate := by
          rintro rfl
          exact foreign (owned glyph rfl)
        simp only [Effect.onIdeal, Function.update_of_ne elsewhere]
        exact woven.cellTwo other foreign
  | walk direction =>
      have low := woven.low
      have high := woven.high
      refine ⟨woven.cellOne, woven.cellTwo, ?_, ?_, ?_, ?_, ?_⟩
      · simp only [Effect.onIdeal, InfiniteTape.moveTo]
        omega
      · simp only [Effect.onIdeal, InfiniteTape.moveTo]
        omega
      · simp only [Effect.onIdeal, InfiniteTape.moveTo, List.getElem?_modify, woven.markerOne]
      · simp only [Effect.onIdeal, InfiniteTape.moveTo, List.getElem?_modify, distinct,
          woven.markerTwo, ↓reduceIte, Option.map_eq_map, Option.map_id_fun', id_eq]
      · intro id notOne notTwo
        simp only [Effect.onIdeal, InfiniteTape.moveTo, List.getElem?_modify, Ne.symm notOne,
          woven.others id notOne notTwo, ↓reduceIte, Option.map_eq_map, Option.map_id_fun', id_eq]

end Woven

/-- What is left for one of two machines: it goes on alone to its end, writes only cells that it
owns, and accesses no cell that the other machine owns. -/
structure Remains (own foreign : Int → Prop) (cursor : CursorId) (machine : Machine)
    (ideal : InfiniteTape) (diary : List (Option Access)) (last : Machine) (final : InfiniteTape) :
    Prop where
  treads : Treads cursor machine ideal diary last final
  rests : last.hasMoreWork = false
  keeps : ∀ access, some access ∈ diary →
    (access.writes = true → own access.cell) ∧ ¬ foreign access.cell

namespace Remains

variable {own foreign : Int → Prop} {cursor otherCursor : CursorId} {machine last : Machine}
  {base ideal two shared final : InfiniteTape} {diary : List (Option Access)}

theorem of_idle (remains : Remains own foreign cursor machine ideal diary last final)
    (idle : machine.hasMoreWork = false) : diary = [] ∧ machine = last ∧ ideal = final := by
  cases remains.treads with
  | refl => exact ⟨rfl, rfl, rfl⟩
  | step work => simp [idle] at work

theorem of_nil (remains : Remains own foreign cursor machine ideal [] last final) :
    machine.hasMoreWork = false := by
  generalize nothing : ([] : List (Option Access)) = diary at remains
  cases remains.treads with
  | refl => exact remains.rests
  | step => contradiction

/-- On a woven tape a machine takes the same step, with the same access, as on its own tape, and the
tapes behind it are woven again. -/
theorem turn (remains : Remains own foreign cursor machine ideal diary last final)
    (work : machine.hasMoreWork = true)
    (woven : Woven own foreign cursor otherCursor base ideal two shared)
    (distinct : cursor ≠ otherCursor) :
    ∃ marker next effect others, shared.usable cursor = .ok marker ∧
      machine.plan (.ok (shared.cell marker.coordinate)) = .ok (next, effect) ∧
      diary =
        machine.accessTo (.ok (shared.cell marker.coordinate)) marker.coordinate :: others ∧
      Remains own foreign cursor next (effect.onIdeal ideal cursor marker.coordinate) others last
        final ∧
      Woven own foreign cursor otherCursor base (effect.onIdeal ideal cursor marker.coordinate) two
        (effect.onIdeal shared cursor marker.coordinate) := by
  obtain ⟨treads, rests, keeps⟩ := remains
  cases treads with
  | refl => simp [rests] at work
  | @step _ next _ _ _ marker effect others _ usable planned treads =>
      have usableShared : shared.usable cursor = .ok marker := by
        rw [← usable]
        simp only [InfiniteTape.usable, woven.markerOne]
      have same : machine.plan (.ok (shared.cell marker.coordinate)) =
            machine.plan (.ok (ideal.cell marker.coordinate)) ∧
          machine.accessTo (.ok (shared.cell marker.coordinate)) marker.coordinate =
            machine.accessTo (.ok (ideal.cell marker.coordinate)) marker.coordinate := by
        cases reading : machine.reads with
        | true =>
            -- The character that is read is in a cell which the other machine never writes.
            have access := Machine.accessTo_of_reads reading planned marker.coordinate
            have mine := (keeps _ (List.mem_cons.mpr (.inl access.symm))).2
            rw [woven.cellOne marker.coordinate mine]
            exact ⟨rfl, rfl⟩
        | false =>
            exact ⟨Machine.plan_of_not_reads reading _ _,
              Machine.accessTo_of_not_reads reading _ _ _⟩
      have owned : ∀ glyph, effect = .write glyph → own marker.coordinate := by
        rintro glyph rfl
        have access := Machine.accessTo_of_writes planned marker.coordinate
        exact (keeps _ (List.mem_cons.mpr (.inl access.symm))).1 rfl
      refine ⟨marker, next, effect, others, usableShared, same.1.trans planned, by rw [same.2], ?_,
        woven.onIdeal distinct effect marker.coordinate owned⟩
      exact ⟨treads, rests, fun access member => keeps access (List.mem_cons_of_mem _ member)⟩

end Remains

/-! ## All schedules -/

/-- Where a schedule leads two machines: to no fault, and in the end to where they come alone, on a
tape that is woven from those on which they end alone. A machine rests as soon as it has had as many
turns as its diary has entries. -/
structure Merges (ownOne ownTwo : Int → Prop) (base finalOne finalTwo : InfiniteTape)
    (lastOne lastTwo : Agent) (diaryOne diaryTwo : List (Option Access)) (added : Nat)
    (ensemble : Ensemble) (schedule : List Nat) : Prop where
  quiet : (ensemble.follow schedule).1 = []
  restsOne : diaryOne.length ≤ schedule.count 0 → (ensemble.follow schedule).2.Rests 0
  restsTwo : diaryTwo.length ≤ schedule.count 1 → (ensemble.follow schedule).2.Rests 1
  fill : (ensemble.follow schedule).2.tape.fill = ensemble.tape.fill
  initial : (ensemble.follow schedule).2.tape.initial = ensemble.tape.initial
  ends : (ensemble.follow schedule).2.Rests 0 → (ensemble.follow schedule).2.Rests 1 →
    (ensemble.follow schedule).2.agents = [lastOne, lastTwo] ∧
    ensemble.diary 0 added schedule = diaryOne ∧ ensemble.diary 1 added schedule = diaryTwo ∧
    ∃ ideal, Mirrors (ensemble.follow schedule).2.tape ideal ∧
      Woven ownOne ownTwo lastOne.cursor lastTwo.cursor base finalOne finalTwo ideal

section Schedules

variable {ownOne ownTwo : Int → Prop} {base finalOne finalTwo : InfiniteTape}
  {lastOne lastTwo : Agent} {diaryOne diaryTwo : List (Option Access)} {added : Nat}
  {ensemble : Ensemble} {turns : List Nat}

/-- A turn in front of a schedule adds its entries to the diaries. -/
theorem Merges.cons {next : Ensemble} {turn addedNext : Nat}
    (entriesOne entriesTwo : List (Option Access))
    (later : Merges ownOne ownTwo base finalOne finalTwo lastOne lastTwo diaryOne diaryTwo addedNext
      next turns)
    (acts : ensemble.act (.step turn) = (none, next))
    (fill : next.tape.fill = ensemble.tape.fill)
    (initial : next.tape.initial = ensemble.tape.initial)
    (one : ensemble.diary 0 added (turn :: turns) =
      entriesOne ++ (ensemble.act (.step turn)).2.diary 0 addedNext turns)
    (two : ensemble.diary 1 added (turn :: turns) =
      entriesTwo ++ (ensemble.act (.step turn)).2.diary 1 addedNext turns)
    (enoughOne : (entriesOne ++ diaryOne).length ≤ (turn :: turns).count 0 →
      diaryOne.length ≤ turns.count 0)
    (enoughTwo : (entriesTwo ++ diaryTwo).length ≤ (turn :: turns).count 1 →
      diaryTwo.length ≤ turns.count 1) :
    Merges ownOne ownTwo base finalOne finalTwo lastOne lastTwo (entriesOne ++ diaryOne)
      (entriesTwo ++ diaryTwo) added ensemble (turn :: turns) := by
  have follows : ensemble.follow (turn :: turns) = next.follow turns := by
    rw [Ensemble.follow_cons, acts]
    rfl
  constructor
  case quiet => exact follows ▸ later.quiet
  case restsOne => exact fun enough => follows ▸ later.restsOne (enoughOne enough)
  case restsTwo => exact fun enough => follows ▸ later.restsTwo (enoughTwo enough)
  case fill => exact follows ▸ later.fill.trans fill
  case initial => exact follows ▸ later.initial.trans initial
  case ends =>
    rw [follows, one, two, acts]
    intro restsOne restsTwo
    obtain ⟨agents, diaryOne, diaryTwo, woven⟩ := later.ends restsOne restsTwo
    exact ⟨agents, by rw [diaryOne], by rw [diaryTwo], woven⟩

variable {machineOne machineTwo : Machine} {cursorOne cursorTwo : CursorId}
  {one two shared : InfiniteTape} {tape : Tape}

/-- A turn that changes nothing adds nothing to the diaries. -/
theorem Merges.skip {turn : Nat}
    (later : Merges ownOne ownTwo base finalOne finalTwo lastOne lastTwo diaryOne diaryTwo added
      ensemble turns)
    (acts : ensemble.act (.step turn) = (none, ensemble))
    (same : ∀ place, ensemble.diary place added (turn :: turns) = ensemble.diary place added turns)
    (enoughOne : diaryOne.length ≤ (turn :: turns).count 0 → diaryOne.length ≤ turns.count 0)
    (enoughTwo : diaryTwo.length ≤ (turn :: turns).count 1 → diaryTwo.length ≤ turns.count 1) :
    Merges ownOne ownTwo base finalOne finalTwo lastOne lastTwo diaryOne diaryTwo added ensemble
      (turn :: turns) :=
  later.cons [] [] acts rfl rfl (by rw [acts, same, List.nil_append])
    (by rw [acts, same, List.nil_append]) enoughOne enoughTwo

/-- Two machines that are still to go on alone to their ends merge under every schedule. The
induction is on the schedule: a turn is a step that the machine takes alone as well, and behind it
the tape is woven again. -/
theorem merges (distinct : cursorOne ≠ cursorTwo) (schedule : List Nat)
    {lastOne lastTwo : Machine}
    (first : Remains ownOne ownTwo cursorOne machineOne one diaryOne lastOne finalOne)
    (second : Remains ownTwo ownOne cursorTwo machineTwo two diaryTwo lastTwo finalTwo)
    (woven : Woven ownOne ownTwo cursorOne cursorTwo base one two shared)
    (mirrors : Mirrors tape shared) (start : (added : Int) = -shared.low) :
    Merges ownOne ownTwo base finalOne finalTwo ⟨lastOne, cursorOne⟩ ⟨lastTwo, cursorTwo⟩ diaryOne
      diaryTwo added ⟨[⟨machineOne, cursorOne⟩, ⟨machineTwo, cursorTwo⟩], tape⟩ schedule := by
  induction schedule generalizing machineOne machineTwo one two shared tape diaryOne diaryTwo added
    with
  | nil =>
      constructor
      case quiet => rfl
      case restsOne =>
        intro enough
        obtain rfl := List.eq_nil_of_length_eq_zero (Nat.le_zero.mp enough)
        rintro agent found
        obtain rfl := Option.some.inj found
        exact first.of_nil
      case restsTwo =>
        intro enough
        obtain rfl := List.eq_nil_of_length_eq_zero (Nat.le_zero.mp enough)
        rintro agent found
        obtain rfl := Option.some.inj found
        exact second.of_nil
      case fill => rfl
      case initial => rfl
      case ends =>
        intro restsOne restsTwo
        obtain ⟨rfl, rfl, rfl⟩ := first.of_idle (restsOne _ rfl)
        obtain ⟨rfl, rfl, rfl⟩ := second.of_idle (restsTwo _ rfl)
        exact ⟨rfl, rfl, rfl, shared, mirrors, woven⟩
  | cons turn turns inductionHypothesis =>
      have later := inductionHypothesis first second woven mirrors start
      let ensemble : Ensemble := ⟨[⟨machineOne, cursorOne⟩, ⟨machineTwo, cursorTwo⟩], tape⟩
      have placeOne : ensemble.agents[0]? = some ⟨machineOne, cursorOne⟩ := rfl
      have placeTwo : ensemble.agents[1]? = some ⟨machineTwo, cursorTwo⟩ := rfl
      rcases turn with _ | _ | turn
      · cases work : machineOne.hasMoreWork with
        | false =>
            obtain ⟨rfl, -, -⟩ := first.of_idle work
            exact later.skip (Ensemble.act_of_idle placeOne work)
              (fun place => Ensemble.diary_of_idle placeOne work place turns) (by simp) (by simp)
        | true =>
            obtain ⟨marker, next, effect, others, usable, planned, rfl, remains, wovenNext⟩ :=
              first.turn work woven distinct
            have laterNext := inductionHypothesis remains second wovenNext
              (mirrors.perform usable effect) (mirrors.added_onIdeal usable effect start)
            exact laterNext.cons [_] [] (Ensemble.act_of_plan placeOne mirrors usable planned)
              (effect.perform_fill tape cursorOne) (effect.perform_initial tape cursorOne)
              (Ensemble.diary_of_plan placeOne mirrors usable work start planned turns)
              (Ensemble.diary_of_other placeOne mirrors usable (by decide) planned turns) (by simp)
              (by simp)
      · cases work : machineTwo.hasMoreWork with
        | false =>
            obtain ⟨rfl, -, -⟩ := second.of_idle work
            exact later.skip (Ensemble.act_of_idle placeTwo work)
              (fun place => Ensemble.diary_of_idle placeTwo work place turns) (by simp) (by simp)
        | true =>
            obtain ⟨marker, next, effect, others, usable, planned, rfl, remains, wovenNext⟩ :=
              second.turn work woven.symm distinct.symm
            have laterNext := inductionHypothesis first remains wovenNext.symm
              (mirrors.perform usable effect) (mirrors.added_onIdeal usable effect start)
            exact laterNext.cons [] [_] (Ensemble.act_of_plan placeTwo mirrors usable planned)
              (effect.perform_fill tape cursorTwo) (effect.perform_initial tape cursorTwo)
              (Ensemble.diary_of_other placeTwo mirrors usable (by decide) planned turns)
              (Ensemble.diary_of_plan placeTwo mirrors usable work start planned turns) (by simp)
              (by simp)
      · exact later.skip rfl (fun place => rfl) (by simp) (by simp)

end Schedules

/-! ## The result -/

/-- A machine comes to its end in a number of turns of its own, without a fault. -/
structure Ensemble.EndsAlone (ensemble : Ensemble) (place count : Nat) : Prop where
  quiet : (ensemble.follow (List.replicate count place)).1 = []
  rests : (ensemble.follow (List.replicate count place)).2.Rests place

theorem Ensemble.length_diary_le (place added : Nat) (ensemble : Ensemble) (schedule : List Nat) :
    (ensemble.diary place added schedule).length ≤ schedule.count place := by
  induction schedule generalizing added ensemble with
  | nil => exact Nat.le_refl _
  | cons turn turns inductionHypothesis =>
      rw [List.count_cons]
      unfold diary
      split
      next => exact Nat.le_add_right_of_le (inductionHypothesis _ _)
      next agent _ =>
        have others := inductionHypothesis (added + agent.prepends ensemble.tape)
          (ensemble.act (.step turn)).2
        by_cases mine : turn = place ∧ agent.machine.hasMoreWork = true
        · simp only [mine, and_self, ↓reduceIte, List.length_cons, beq_self_eq_true]
          rw [mine.1] at others
          exact Nat.succ_le_succ others
        · simp only [mine, ↓reduceIte]
          exact Nat.le_add_right_of_le others

/-- A cell is written in a diary. -/
def Writes (diary : List (Option Access)) (cell : Int) : Prop :=
  ∃ access, some access ∈ diary ∧ access.writes = true ∧ access.cell = cell

theorem Separate.symm {one two : List (Option Access)} (separate : Separate one two) :
    Separate two one :=
  fun first second inOne inTwo same => (separate second first inTwo inOne same.symm).symm

theorem Separate.keeps {one two : List (Option Access)} (separate : Separate one two)
    (access : Access) (member : some access ∈ one) :
    (access.writes = true → Writes one access.cell) ∧ ¬ Writes two access.cell := by
  refine ⟨fun writes => ⟨access, member, writes, rfl⟩, ?_⟩
  rintro ⟨other, memberOther, writes, same⟩
  have unwritten := (separate access other member memberOther same.symm).2
  simp [writes] at unwritten

theorem Separate.apart {one two : List (Option Access)} (separate : Separate one two) (cell : Int)
    (written : Writes one cell) : ¬ Writes two cell := by
  obtain ⟨access, member, -, rfl⟩ := written
  exact (separate.keeps access member).2

/-- Two machines with cursors of their own are given, each of which comes to its end alone, and none
of which accesses a cell that the other one writes. Whatever the order of their turns, there is no
fault, both come to their ends if they have turns enough, and when they have, each of them has taken
the steps and made the accesses that it makes alone, and the tape, with all of its cursors, is the
one that is left when they run one after the other. -/
theorem schedule_independent (tape : Tape) (seated : tape.Seated) (one two : Agent)
    (distinct : one.cursor ≠ two.cursor) (aliveOne : tape.isAlive one.cursor = true)
    (aliveTwo : tape.isAlive two.cursor = true) (countOne countTwo : Nat)
    (aloneOne : (⟨[one, two], tape⟩ : Ensemble).EndsAlone 0 countOne)
    (aloneTwo : (⟨[one, two], tape⟩ : Ensemble).EndsAlone 1 countTwo)
    (separate : Separate
      ((⟨[one, two], tape⟩ : Ensemble).diary 0 0 (List.replicate countOne 0))
      ((⟨[one, two], tape⟩ : Ensemble).diary 1 0 (List.replicate countTwo 1)))
    (schedule : List Nat) :
    let shared : Ensemble := ⟨[one, two], tape⟩
    let outcome := shared.follow schedule
    outcome.1 = [] ∧
      (countOne ≤ schedule.count 0 → outcome.2.Rests 0) ∧
      (countTwo ≤ schedule.count 1 → outcome.2.Rests 1) ∧
      (outcome.2.Rests 0 → outcome.2.Rests 1 →
        outcome.2.agents[0]? = (shared.follow (List.replicate countOne 0)).2.agents[0]? ∧
        outcome.2.agents[1]? = (shared.follow (List.replicate countTwo 1)).2.agents[1]? ∧
        shared.diary 0 0 schedule = shared.diary 0 0 (List.replicate countOne 0) ∧
        shared.diary 1 0 schedule = shared.diary 1 0 (List.replicate countTwo 1) ∧
        outcome.2.tape =
          (shared.follow (List.replicate countOne 0 ++ List.replicate countTwo 1)).2.tape) := by
  intro shared outcome
  have placeOne : shared.agents[0]? = some one := rfl
  have placeTwo : shared.agents[1]? = some two := rfl
  have mirrors : Mirrors shared.tape tape.ideal := seated.mirrors
  have start : ((0 : Nat) : Int) = -tape.ideal.low := rfl
  obtain ⟨lastOne, finalOne, treadsOne, idleOne, agentsOne⟩ :=
    Ensemble.treads_of_alone placeOne mirrors aliveOne start aloneOne.quiet aloneOne.rests
  obtain ⟨lastTwo, finalTwo, treadsTwo, idleTwo, agentsTwo⟩ :=
    Ensemble.treads_of_alone placeTwo mirrors aliveTwo start aloneTwo.quiet aloneTwo.rests
  have lengthOne := Ensemble.length_diary_le 0 0 shared (List.replicate countOne 0)
  have lengthTwo := Ensemble.length_diary_le 1 0 shared (List.replicate countTwo 1)
  rw [List.count_replicate_self] at lengthOne lengthTwo
  have merged (schedule : List Nat) := merges distinct schedule
    ⟨treadsOne, idleOne, separate.keeps⟩ ⟨treadsTwo, idleTwo, separate.symm.keeps⟩
    (Woven.refl tape.ideal) mirrors start
  have turns := merged schedule
  have sequential := merged (List.replicate countOne 0 ++ List.replicate countTwo 1)
  refine ⟨turns.quiet, fun enough => turns.restsOne (Nat.le_trans lengthOne enough),
    fun enough => turns.restsTwo (Nat.le_trans lengthTwo enough), ?_⟩
  intro restsOne restsTwo
  obtain ⟨agents, diaryOne, diaryTwo, ideal, mirrorsEnd, woven⟩ := turns.ends restsOne restsTwo
  obtain ⟨-, -, -, other, mirrorsOther, wovenOther⟩ := sequential.ends
    (sequential.restsOne (by simpa [List.count_replicate] using lengthOne))
    (sequential.restsTwo (by simpa [List.count_replicate] using lengthTwo))
  obtain rfl := woven.unique wovenOther separate.apart
  refine ⟨?_, ?_, diaryOne, diaryTwo, ?_⟩
  · rw [agents, agentsOne]
    rfl
  · rw [agents, agentsTwo]
    rfl
  · exact mirrorsEnd.unique mirrorsOther (turns.fill.trans sequential.fill.symm)
      (turns.initial.trans sequential.initial.symm)

instance (ensemble : Ensemble) (place : Nat) : Decidable (ensemble.Rests place) :=
  inferInstanceAs
    (Decidable (∀ agent ∈ ensemble.agents[place]?, agent.machine.hasMoreWork = false))

instance (one two : List (Option Access)) : Decidable (Separate one two) :=
  decidable_of_iff
    (∀ first ∈ one.filterMap id, ∀ second ∈ two.filterMap id, first.cell = second.cell →
      first.writes = false ∧ second.writes = false)
    (by
      simp only [Separate, List.mem_filterMap, id_eq, exists_eq_right]
      grind)

/-- A machine that goes past the left edge, and writes there. -/
def westbound : Agent where
  machine := .start
    ⟨⟨#[.push (.number 2), .move .left, .push (.character 'x'), .write, .read, .write], #[]⟩,
      .ofList []⟩
  cursor := 0

/-- A machine that takes its character along past the right edge. -/
def eastbound : Agent where
  machine := .start ⟨⟨#[.read, .push (.number 3), .move .right, .write], #[]⟩, .ofList []⟩
  cursor := 1

/-- Cursors on two neighbouring cells. -/
def crossroads : Tape :=
  (((Tape.ofText "ab".toList '_').register 0).1.register 1).1

def crossing : Ensemble :=
  ⟨[westbound, eastbound], crossroads⟩

def crossingTurns : List Nat :=
  [0, 1, 0, 1, 1, 0, 0, 1, 1, 0, 1, 0, 0]

theorem schedule_independent_crossing :
    (crossing.follow crossingTurns).2.tape.text = "x_ab__b".toList ∧
      (crossing.follow crossingTurns).2.tape =
        (crossing.follow (List.replicate 7 0 ++ List.replicate 6 1)).2.tape := by
  have independent := schedule_independent crossroads ⟨by decide, by decide⟩ westbound eastbound
    (by decide) (by decide) (by decide) 7 6 ⟨by decide +kernel, by decide +kernel⟩
    ⟨by decide +kernel, by decide +kernel⟩ (by decide +kernel) crossingTurns
  have ends := independent.2.2.2 (independent.2.1 (by decide)) (independent.2.2.1 (by decide))
  exact ⟨by decide +kernel, ends.2.2.2.2⟩

end TapeMachine
