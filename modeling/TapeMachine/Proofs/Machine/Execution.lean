import TapeMachine.Machine.Step

/-!
Contract: what a machine executes, and how many steps it takes.

Owns: the comparing instructions on operands that they accept; a number of steps without a fault,
the number of steps to the end of a run, how the two fit together, and the runs with a limit that
end.
-/

namespace TapeMachine.Machine

/-! ## Comparisons -/

theorem execute_negation {machine : Machine} {glyph : Except TapeError Char} {truth : Bool}
    {below : List Value} (same : machine.stack = .boolean truth :: below) :
    machine.execute glyph (.compare .negation) =
      .ok ({ machine with stack := .boolean (!truth) :: below }.advance, .none) := by
  simp [execute, same, Comparison.arity, Comparison.evaluate, Value.truth, Value.boolean?]

theorem execute_binary {machine : Machine} {glyph : Except TapeError Char} {op : BinaryOp}
    {left right : Value} {truth : Bool} {below : List Value}
    (same : machine.stack = right :: left :: below) (applied : op.apply left right = .ok truth) :
    machine.execute glyph (.compare (.binary op)) =
      .ok ({ machine with stack := .boolean truth :: below }.advance, .none) := by
  simp [execute, same, Comparison.arity, Comparison.evaluate, applied]

/-! ## Steps -/

/-- A machine takes a number of steps, each of them with work to do and without a fault. -/
inductive Advances (cursor : CursorId) : Machine → Tape → Nat → Machine → Tape → Prop where
  | refl {machine : Machine} {tape : Tape} : Advances cursor machine tape 0 machine tape
  | step {machine next last : Machine} {tape behind final : Tape} {count : Nat}
      (work : machine.hasMoreWork = true) (stepped : machine.step tape cursor = (.ok next, behind))
      (others : Advances cursor next behind count last final) :
      Advances cursor machine tape (count + 1) last final

/-- After a number of steps no work is left. -/
def Ends (machine : Machine) (cursor : CursorId) (tape : Tape) (count : Nat) (final : Tape)
    (halted : Bool) : Prop :=
  ∃ last, Advances cursor machine tape count last final ∧ last.hasMoreWork = false ∧
    last.halted = halted

section Steps

variable {cursor : CursorId} {machine next : Machine} {tape behind final : Tape}
  {count others : Nat} {halted : Bool}

theorem Advances.trans {last : Machine} (first : Advances cursor machine tape count next behind)
    (second : Advances cursor next behind others last final) :
    Advances cursor machine tape (count + others) last final := by
  induction first with
  | refl => rwa [Nat.zero_add]
  | step work stepped _ inductionHypothesis =>
      rw [Nat.add_right_comm]
      exact .step work stepped (inductionHypothesis second)

/-- A run that begins with some steps ends when what follows them ends. -/
theorem Ends.before (advances : Advances cursor machine tape count next behind)
    (ends : next.Ends cursor behind others final halted) :
    machine.Ends cursor tape (count + others) final halted := by
  rcases ends with ⟨last, rest, idle, flag⟩
  exact ⟨last, advances.trans rest, idle, flag⟩

/-- Steps that a machine can take are the first steps of its run. -/
theorem Ends.after (advances : Advances cursor machine tape count next behind)
    (ends : machine.Ends cursor tape others final halted) :
    count ≤ others ∧ next.Ends cursor behind (others - count) final halted := by
  induction advances generalizing others with
  | refl => exact ⟨Nat.zero_le _, ends⟩
  | step work stepped _ inductionHypothesis =>
      rcases ends with ⟨last, rest, idle, flag⟩
      cases rest with
      | refl => simp [idle] at work
      | step _ same rest =>
          obtain ⟨nextEq, rfl⟩ := Prod.mk.inj (stepped.symm.trans same)
          obtain rfl := Except.ok.inj nextEq
          obtain ⟨enough, ended⟩ := inductionHypothesis ⟨last, rest, idle, flag⟩
          refine ⟨Nat.succ_le_succ enough, ?_⟩
          rwa [Nat.add_sub_add_right]

theorem Ends.of_idle (idle : machine.hasMoreWork = false)
    (ends : machine.Ends cursor tape count final halted) :
    final = tape ∧ machine.halted = halted := by
  rcases ends with ⟨last, rest, -, flag⟩
  cases rest with
  | refl => exact ⟨rfl, flag⟩
  | step work => simp [idle] at work

/-- A run has one end at most. -/
theorem Ends.unique {other : Tape} {flag : Bool}
    (first : machine.Ends cursor tape count final halted)
    (second : machine.Ends cursor tape others other flag) : other = final ∧ halted = flag := by
  rcases first with ⟨last, advances, idle, rfl⟩
  exact (second.after advances).2.of_idle idle

theorem ends_of_idle (idle : machine.hasMoreWork = false) :
    machine.Ends cursor tape 0 tape machine.halted :=
  ⟨machine, .refl, idle, rfl⟩

end Steps

/-- Some limit of steps is enough for the run to end, without a fault and with no work left. -/
def Terminates (machine : Machine) (cursor : CursorId) (tape final : Tape) (halted : Bool) : Prop :=
  ∃ limit, (machine.run cursor limit tape).fault = none ∧
    (machine.run cursor limit tape).machine.hasMoreWork = false ∧
    (machine.run cursor limit tape).tape = final ∧
    (machine.run cursor limit tape).machine.halted = halted

theorem ends_of_run {cursor : CursorId} {limit : Nat} {machine : Machine} {tape : Tape}
    (quiet : (machine.run cursor limit tape).fault = none)
    (idle : (machine.run cursor limit tape).machine.hasMoreWork = false) :
    ∃ count, machine.Ends cursor tape count (machine.run cursor limit tape).tape
      (machine.run cursor limit tape).machine.halted := by
  induction limit generalizing machine tape with
  | zero => exact ⟨0, ends_of_idle idle⟩
  | succ limit inductionHypothesis =>
      unfold run runWith at quiet idle ⊢
      by_cases work : machine.hasMoreWork = true
      · simp only [work, ↓reduceIte] at quiet idle ⊢
        cases stepped : machine.step tape cursor with
        | mk outcome behind =>
            cases outcome with
            | error fault => simp [stepped] at quiet
            | ok next =>
                simp only [stepped] at quiet idle ⊢
                obtain ⟨count, ends⟩ := inductionHypothesis quiet idle
                exact ⟨1 + count, ends.before (.step work stepped .refl)⟩
      · simp only [work] at idle ⊢
        exact ⟨0, ends_of_idle idle⟩

theorem Advances.run_eq {cursor : CursorId} {machine next : Machine} {tape behind : Tape}
    {count : Nat} (advances : Advances cursor machine tape count next behind) :
    machine.run cursor count tape = ⟨next, behind, none, ()⟩ := by
  induction advances with
  | refl => rfl
  | step work stepped _ inductionHypothesis =>
      unfold run runWith
      simp only [work, ↓reduceIte, stepped]
      exact inductionHypothesis

theorem run_of_ends {cursor : CursorId} {machine : Machine} {tape final : Tape} {count : Nat}
    {halted : Bool} (ends : machine.Ends cursor tape count final halted) :
    (machine.run cursor count tape).fault = none ∧
      (machine.run cursor count tape).machine.hasMoreWork = false ∧
      (machine.run cursor count tape).tape = final ∧
      (machine.run cursor count tape).machine.halted = halted := by
  rcases ends with ⟨last, advances, idle, flag⟩
  rw [advances.run_eq]
  exact ⟨rfl, idle, rfl, flag⟩

theorem terminates_iff {machine : Machine} {cursor : CursorId} {tape final : Tape} {halted : Bool} :
    machine.Terminates cursor tape final halted ↔
      ∃ count, machine.Ends cursor tape count final halted := by
  constructor
  · rintro ⟨limit, quiet, idle, rfl, rfl⟩
    exact ends_of_run quiet idle
  · rintro ⟨count, ends⟩
    exact ⟨count, run_of_ends ends⟩

end TapeMachine.Machine
