import TapeMachine.Proofs.Code.Jump
import TapeMachine.Proofs.Operator

/-!
Contract: code without loops.

Owns: statements without loops, the distances that are written in code, and that jumps lead forward
in what statements without loops are lowered to, where every move has its distance in front of it.

A number is written as a literal, since no operator yields one. So the distance of a move is pushed
by the instruction in front of it, and no jump leads between the two.
-/

namespace TapeMachine

/-! ## Loops -/

def Statement.isLoop : Statement → Bool
  | .whileLoop .. => true
  | _ => false

/-- None of some statements is a loop, at any depth. -/
def Statement.LoopFree (statements : List Statement) : Prop :=
  ∀ site ∈ Statement.sitesOf 0 statements, site.statement.isLoop = false

instance (statements : List Statement) : Decidable (Statement.LoopFree statements) :=
  inferInstanceAs
    (Decidable (∀ site ∈ Statement.sitesOf 0 statements, site.statement.isLoop = false))

/-- The jumps of a statement that is no loop lead forward. -/
theorem Site.forward_of_route {site : Site} {source target : Nat}
    (straight : site.statement.isLoop = false) (route : (source, target) ∈ site.routes) :
    source < target := by
  rcases site with ⟨start, statement⟩
  cases statement with
  | ifThen condition body line =>
      obtain ⟨rfl, rfl⟩ := Prod.mk.inj (List.mem_singleton.mp route)
      simp only [Site.finish, Statement.length_ifThen]
      omega
  | ifElse condition thenBody elseBody line =>
      simp only [Site.routes, Site.finish, Statement.length_ifElse, List.mem_cons, Prod.mk.injEq,
        List.not_mem_nil, or_false] at route
      omega
  | whileLoop condition body line => contradiction
  | _ => simp [Site.routes] at route

/-! ## Written distances -/

/-- The cells that a move walks if its distance is pushed by the instruction in front of it. -/
def Instruction.distanceOf : Instruction → Instruction → Nat
  | .push (.number distance), .move _ => distance.natAbs
  | _, _ => 0

/-- The sum of the distances of all moves that are pushed right in front of them. -/
def writtenDistance : List Instruction → Nat
  | [] => 0
  | [_] => 0
  | first :: next :: others => first.distanceOf next + writtenDistance (next :: others)

theorem writtenDistance_le_cons (first : Instruction) (others : List Instruction) :
    writtenDistance others ≤ writtenDistance (first :: others) := by
  cases others with
  | nil => exact Nat.le_refl _
  | cons next others => exact Nat.le_add_left _ _

theorem writtenDistance_drop_le (instructions : List Instruction) (count : Nat) :
    writtenDistance (instructions.drop count) ≤ writtenDistance instructions := by
  induction count generalizing instructions with
  | zero => exact Nat.le_refl _
  | succ count inductionHypothesis =>
      cases instructions with
      | nil => exact Nat.le_refl _
      | cons first others =>
          exact Nat.le_trans (inductionHypothesis others) (writtenDistance_le_cons first others)

/-- Behind a later index, no more is written. -/
theorem writtenDistance_antitone (instructions : List Instruction) {first second : Nat}
    (later : first ≤ second) :
    writtenDistance (instructions.drop second) ≤ writtenDistance (instructions.drop first) := by
  obtain ⟨count, rfl⟩ := Nat.exists_eq_add_of_le later
  rw [← List.drop_drop]
  exact writtenDistance_drop_le _ _

theorem writtenDistance_move {instructions : List Instruction} {index : Nat} {distance : Int}
    {direction : Direction} (pushed : instructions[index]? = some (.push (.number distance)))
    (moves : instructions[index + 1]? = some (.move direction)) :
    writtenDistance (instructions.drop index) =
      distance.natAbs + writtenDistance (instructions.drop (index + 1)) := by
  have split {place : Nat} {instruction : Instruction}
      (found : instructions[place]? = some instruction) :
      instructions.drop place = instruction :: instructions.drop (place + 1) := by
    obtain ⟨inside, rfl⟩ := List.getElem?_eq_some_iff.mp found
    exact List.drop_eq_getElem_cons inside
  rw [split pushed, split moves]
  rfl

/-! ## Code that leads forward -/

/-- Jumps lead forward and never to a move, and in front of every move a number is pushed. -/
structure Onward (code : Array Instruction) : Prop where
  forward : ∀ source target, JumpsTo code source target → source < target
  lands : ∀ source target direction, JumpsTo code source target →
    code[target]? ≠ some (.move direction)
  measured : ∀ index direction, code[index]? = some (.move direction) →
    ∃ before distance, index = before + 1 ∧ code[before]? = some (.push (.number distance))

theorem Onward.no_move_behind {code : Array Instruction} (onward : Onward code) {index : Nat}
    {instruction : Instruction} (found : code[index]? = some instruction)
    (other : ∀ distance, instruction ≠ .push (.number distance)) (direction : Direction) :
    code[index + 1]? ≠ some (.move direction) := by
  intro moves
  obtain ⟨before, distance, same, pushed⟩ := onward.measured _ _ moves
  obtain rfl : index = before := Nat.succ.inj same
  exact other distance (Option.some.inj (found.symm.trans pushed))

theorem Onward.no_move_first {code : Array Instruction} (onward : Onward code)
    (direction : Direction) : code[0]? ≠ some (.move direction) := by
  intro moves
  obtain ⟨before, -, same, -⟩ := onward.measured _ _ moves
  simp at same

/-- An expression that is a number is a literal. -/
theorem HasType.code_of_number {expression : Expression} (typed : HasType expression .number) :
    ∃ distance, expression.code.instructions = [.push (.number distance)] := by
  generalize number : ValueType.number = type at typed
  induction typed with
  | nested _ inductionHypothesis => exact inductionHypothesis number
  | @literal value =>
      obtain ⟨distance, rfl⟩ := Value.eq_number number.symm
      exact ⟨distance, rfl⟩
  | _ => contradiction

namespace Statement

variable {statements : List Statement}

/-- Every move of a sequence is the second and last instruction of a statement, behind its
distance. -/
theorem measured_move (typed : AllWellTyped statements) {index : Nat} {direction : Direction}
    (found : (sequence statements)[index]? = some (.move direction)) :
    ∃ site ∈ sitesOf 0 statements, index = site.start + 1 ∧ site.finish = site.start + 2 ∧
      ∃ distance, (sequence statements)[site.start]? = some (.push (.number distance)) := by
  rcases ownedBy_sites found with operand | ⟨site, member, own⟩
  · contradiction
  · have fits := wellTyped_of_site typed member
    have here := contains_site member
    refine ⟨site, member, ?_⟩
    rcases site with ⟨start, statement⟩
    cases statement with
    | move other expression line =>
        obtain ⟨distance, written⟩ := HasType.code_of_number fits
        have single : expression.code.length = 1 := by
          rw [← Code.length_instructions, written]
          rfl
        simp only [Statement.code, Code.instructions_append, written] at here
        obtain ⟨rfl, -⟩ := Prod.mk.inj (List.mem_singleton.mp own)
        exact ⟨by rw [single], by simp [Site.finish, Statement.code, single], distance, here.head⟩
    | _ => simp [Site.own] at own

/-- What well-typed statements without loops are lowered to leads forward. -/
theorem onward (typed : AllWellTyped statements) (straight : LoopFree statements) :
    Onward (sequence statements) where
  forward source target leads := by
    obtain ⟨site, member, route⟩ := jumpsTo_iff.mp leads
    exact Site.forward_of_route (straight site member) route
  lands source target direction leads found := by
    -- a jump to the move would lead into the middle of its statement, which contains no jump
    obtain ⟨site, member, rfl, finish, distance, pushed⟩ := measured_move typed found
    have admits := admits_of_jumpsTo leads member
    obtain ⟨instruction, here, target⟩ := leads
    have beside : source ≠ site.start ∧ source ≠ site.start + 1 := by
      constructor
      · rintro rfl
        obtain rfl := Option.some.inj (pushed.symm.trans here)
        simp [Instruction.target?, Instruction.jumpOffset?] at target
      · rintro rfl
        obtain rfl := Option.some.inj (found.symm.trans here)
        simp [Instruction.target?, Instruction.jumpOffset?] at target
    simp only [Site.Admits, Site.Spans, finish] at admits
    omega
  measured index direction found := by
    obtain ⟨site, -, same, -, distance, pushed⟩ := measured_move typed found
    exact ⟨site.start, distance, same, pushed⟩

end Statement

end TapeMachine
