import TapeMachine.Proofs.Code.StackMap
import TapeMachine.Proofs.Machine.Execution
import TapeMachine.Proofs.Operator
import TapeMachine.Proofs.Tape.Growth

/-!
Contract: a machine that runs lowered code of a checked program never faults.

Owns: the executables whose code agrees with stack maps, the states in which a machine is safe,
and that a step neither faults in a safe state nor leads out of the safe states.

Does not own: the cursor; a step is looked at under any character that the cursor may read.
-/

namespace TapeMachine

/-! ## Executables -/

namespace Executable

def Defines (executable : Executable) (label : String) : Prop :=
  (executable.labels.get? label).isSome = true

/-- Some instructions agree with a stack map and need nothing on the stack to begin with. -/
def Checks (executable : Executable) (instructions : Array Instruction) : Prop :=
  ∃ map, Covers executable.Defines [] instructions.toList map [] ∧ Leads map []

/-- Every sequence agrees with a stack map. -/
structure Sound (executable : Executable) : Prop where
  main : executable.Checks executable.main.instructions
  labels : ∀ name body, executable.labels.get? name = some body →
    executable.Checks body.instructions

end Executable

/-- Lowering a checked program yields code that agrees with stack maps. -/
theorem Program.sound_executable {program : Program} (typed : program.WellTyped)
    (resolved : program.Resolved) : program.executable.Sound := by
  have defined {item : Item} (member : item ∈ program.items) :
      ∀ name ∈ item.gotos, program.executable.Defines name := by
    intro name jumps
    rw [Executable.Defines, labels_get?, Option.isSome_map]
    exact resolved.body? member jumps
  constructor
  · refine ⟨Statement.stackMapOf [] program.statements, ?_, ?_⟩
    · rw [main_instructions]
      apply Statement.coversAll
      · exact Statement.allWellTyped_iff.mpr fun entry member => typed _ (mem_statements.mp member)
      · intro name jumps
        obtain ⟨entry, member, own⟩ := Statement.mem_gotosOf.mp jumps
        exact defined (mem_statements.mp member) name own
      · exact leads_nil _
    · simpa using Statement.leads_stackMapOf program.statements [] [] (leads_nil _)
  · intro name code found
    rw [labels_get?] at found
    obtain ⟨body, isBody, rfl⟩ := Option.map_eq_some_iff.mp found
    obtain ⟨definition, member, rfl⟩ := label_of_body? isBody
    refine ⟨definition.body.stackMap [], ?_, ?_⟩
    · rw [Code.toList_ofCode]
      exact definition.body.covers (typed _ member) (defined member) [] [] [] (leads_nil _)
    · simpa using definition.body.leads_stackMap [] [] (leads_nil _)

/-! ## Safe states -/

namespace Machine

def types (machine : Machine) : List ValueType :=
  machine.stack.map Value.type

/-- The program agrees with stack maps, and so do the stack and the place in the sequence that is
being executed. -/
structure Safe (machine : Machine) : Prop where
  sound : machine.program.Sound
  place : ∀ instructions, machine.active = some instructions → ∃ map,
    Covers machine.program.Defines [] instructions.toList map [] ∧
      Enters map machine.index machine.types

theorem safe_finish {machine : Machine} (sound : machine.program.Sound) : machine.finish.Safe where
  sound := sound
  place := by simp [finish]

theorem Safe.settle {machine : Machine} (safe : machine.Safe) : machine.settle.Safe := by
  unfold Machine.settle
  split
  · exact safe
  · split
    · exact safe_finish safe.sound
    · split
      · exact safe_finish safe.sound
      · exact safe

/-- Execution may begin at the first instruction of a sequence whatever lies on the stack. -/
theorem enters_zero {map : List (List ValueType)} (leads : Leads map []) (types : List ValueType) :
    Enters map 0 types := by
  intro entry found
  rw [← List.head?_eq_getElem?] at found
  obtain rfl := List.prefix_nil.mp (leads entry found)
  exact List.nil_prefix

theorem safe_start {executable : Executable} (sound : executable.Sound) :
    (start executable).Safe := by
  apply Safe.settle
  refine ⟨sound, ?_⟩
  rintro instructions active
  obtain rfl := Option.some.inj active
  rcases sound.main with ⟨map, covers, leads⟩
  exact ⟨map, covers, enters_zero leads _⟩

/-- Types that lie on top of a stack name its topmost values. -/
theorem pop {type : ValueType} {types : List ValueType} {stack : List Value}
    (fits : type :: types <+: stack.map Value.type) :
    ∃ value below, stack = value :: below ∧ value.type = type ∧
      types <+: below.map Value.type := by
  cases stack with
  | nil => simp at fits
  | cons value below =>
      obtain ⟨same, rest⟩ := List.cons_prefix_cons.mp fits
      exact ⟨value, below, rfl, same.symm, rest⟩

theorem Safe.go {machine : Machine} (safe : machine.Safe) {instructions : Array Instruction}
    {map : List (List ValueType)} {index : Nat} {stack : List Value} {types : List ValueType}
    (active : machine.active = some instructions)
    (covers : Covers machine.program.Defines [] instructions.toList map [])
    (enters : Enters map index types) (fits : types <+: stack.map Value.type) :
    ({ machine with index := index, stack := stack } : Machine).Safe where
  sound := safe.sound
  place := by
    intro others same
    obtain rfl := Option.some.inj (active.symm.trans same)
    exact ⟨map, covers, fun entry found => (enters entry found).trans fits⟩

theorem Safe.beginMove {machine : Machine} (safe : machine.Safe) (distance : Int)
    (direction : Direction) : (machine.beginMove distance direction).1.Safe := by
  unfold Machine.beginMove
  split
  · exact safe
  · exact ⟨safe.sound, safe.place⟩

/-- An instruction that agrees with the stack map is executed without a fault, whatever character
the cursor reads, and keeps the machine safe. -/
theorem Safe.execute {machine : Machine} (safe : machine.Safe) {instructions : Array Instruction}
    {map : List (List ValueType)} (active : machine.active = some instructions)
    (covers : Covers machine.program.Defines [] instructions.toList map []) (glyph : Char)
    {instruction : Instruction} {entry : List ValueType}
    (flows : Flows machine.program.Defines map machine.index entry instruction)
    (fits : entry <+: machine.types) :
    ∃ next effect, machine.execute (.ok glyph) instruction = .ok (next, effect) ∧ next.Safe := by
  have go {index : Nat} {stack : List Value} {types : List ValueType} :=
    @Safe.go machine safe instructions map index stack types active covers
  unfold Machine.types at fits
  cases flows with
  | push next =>
      exact ⟨_, _, rfl, go next (List.cons_prefix_cons.mpr ⟨rfl, fits⟩)⟩
  | duplicate next =>
      obtain ⟨value, below, same, rfl, rest⟩ := pop fits
      simp only [Machine.execute, same]
      have both : value.type :: value.type :: _ <+: (value :: value :: below).map Value.type :=
        List.cons_prefix_cons.mpr ⟨rfl, List.cons_prefix_cons.mpr ⟨rfl, rest⟩⟩
      exact ⟨_, _, rfl, go next both⟩
  | negate next =>
      obtain ⟨value, below, same, type, rest⟩ := pop fits
      obtain ⟨truth, rfl⟩ := Value.eq_boolean type
      exact ⟨_, _, Machine.execute_negation same, go next (List.cons_prefix_cons.mpr ⟨rfl, rest⟩)⟩
  | @compare types op leftType rightType logical next =>
      obtain ⟨right, above, same, rfl, fitsAbove⟩ := pop fits
      obtain ⟨left, below, rfl, rfl, rest⟩ := pop fitsAbove
      obtain ⟨truth, applied⟩ := BinaryOp.apply_of_types logical
      exact ⟨_, _, Machine.execute_binary same applied, go next (List.cons_prefix_cons.mpr ⟨rfl, rest⟩)⟩
  | read next => exact ⟨_, _, rfl, go next (List.cons_prefix_cons.mpr ⟨rfl, fits⟩)⟩
  | write next =>
      obtain ⟨value, below, same, type, rest⟩ := pop fits
      obtain ⟨glyph, rfl⟩ := Value.eq_character type
      simp only [Machine.execute, same]
      exact ⟨_, _, rfl, go next rest⟩
  | move next =>
      obtain ⟨value, below, same, type, rest⟩ := pop fits
      obtain ⟨distance, rfl⟩ := Value.eq_number type
      simp only [Machine.execute, same]
      exact ⟨_, _, rfl, (go next rest).beginMove distance _⟩
  | jump leads next =>
      simp only [Machine.execute, relocate, leads]
      exact ⟨_, _, rfl, go next fits⟩
  | jumpIf falls leads jumps =>
      obtain ⟨value, below, same, type, rest⟩ := pop fits
      obtain ⟨truth, rfl⟩ := Value.eq_boolean type
      cases truth with
      | true =>
          simp only [Machine.execute, same, relocate, leads]
          exact ⟨_, _, rfl, go jumps rest⟩
      | false =>
          simp only [Machine.execute, same]
          exact ⟨_, _, rfl, go falls rest⟩
  | call found =>
      obtain ⟨body, lookup⟩ := Option.isSome_iff_exists.mp found
      obtain ⟨bodyMap, bodyCovers, bodyLeads⟩ := safe.sound.labels _ body lookup
      simp only [Machine.execute, lookup]
      refine ⟨_, _, rfl, safe.sound, ?_⟩
      rintro others entered
      obtain rfl := Option.some.inj entered
      exact ⟨bodyMap, bodyCovers, enters_zero bodyLeads _⟩
  | halt => exact ⟨_, _, rfl, safe_finish safe.sound⟩

/-- A safe machine plans its next step without a fault, whatever character the cursor reads, and is
safe behind it. -/
theorem Safe.plan {machine : Machine} (safe : machine.Safe) (glyph : Char) :
    ∃ next effect, machine.plan (.ok glyph) = .ok (next, effect) ∧ next.Safe := by
  have counted : machine.countStep.Safe := ⟨safe.sound, safe.place⟩
  unfold Machine.plan
  split
  · have walking (walk : Option Walk) : ({ machine with walk := walk } : Machine).countStep.Safe :=
      ⟨safe.sound, safe.place⟩
    exact ⟨_, _, rfl, (walking _).settle⟩
  · split
    · exact ⟨_, _, rfl, safe⟩
    · rename_i instructions active
      split
      · exact ⟨_, _, rfl, safe_finish safe.sound⟩
      · rename_i instruction found
        obtain ⟨map, covers, enters⟩ := safe.place instructions active
        obtain ⟨inside, -⟩ := Array.getElem?_eq_some_iff.mp found
        have present : instructions.toList[machine.index]? = some instruction := by
          rwa [Array.getElem?_toList]
        have mapped : machine.index < map.length := by
          rw [← covers.length]
          simpa using inside
        have entry := List.getElem?_eq_getElem mapped
        have flows := covers.flows machine.index instruction _ present entry
        simp only [List.length_nil, Nat.zero_add, List.nil_append, List.append_nil] at flows
        obtain ⟨next, effect, executed, safeNext⟩ :=
          counted.execute active covers glyph flows (enters _ entry)
        exact ⟨next.settle, effect, by rw [executed], safeNext.settle⟩

/-- A step of a safe machine with a living cursor ends without a fault; it leaves the machine safe
and every cursor as alive as it was. -/
theorem Safe.step {machine : Machine} (safe : machine.Safe) {tape : Tape} {cursor : CursorId}
    (alive : tape.isAlive cursor = true) :
    ∃ next behind, machine.step tape cursor = (.ok next, behind) ∧ next.Safe ∧
      ∀ id, behind.isAlive id = tape.isAlive id := by
  have usable := (tape.refusal?_eq_none_iff cursor).mpr alive
  obtain ⟨glyph, read⟩ : ∃ glyph, tape.read cursor = .ok glyph := by
    simp [Tape.read, usable]
  obtain ⟨next, effect, planned, safeNext⟩ := safe.plan glyph
  have accepted : effect.refusal? tape cursor = none := by
    cases effect <;> simp [Effect.refusal?, usable]
  simp only [Machine.step, read, planned, accepted]
  refine ⟨next, effect.perform tape cursor, rfl, safeNext, ?_⟩
  intro id
  cases effect <;> simp [Effect.perform]

/-- A safe machine with a living cursor runs without a fault, however long. -/
theorem Safe.run {machine : Machine} (safe : machine.Safe) {tape : Tape} {cursor : CursorId}
    (alive : tape.isAlive cursor = true) (limit : Nat) :
    (machine.run cursor limit tape).fault = none := by
  induction limit generalizing machine tape with
  | zero => rfl
  | succ limit inductionHypothesis =>
      unfold Machine.run runWith
      split
      · obtain ⟨next, behind, stepped, safeNext, kept⟩ := safe.step alive
        simp only [stepped]
        exact inductionHypothesis safeNext ((kept cursor).trans alive)
      · rfl

end Machine

end TapeMachine
