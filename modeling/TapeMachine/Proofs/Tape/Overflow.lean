import TapeMachine.Proofs.Tape.Seated

/-!
Contract: as long as a word can count the cells, a program does what unbounded numbers say.

Owns: the agreement between an outcome of a program and an unbounded result, the agreement of every
operation, and the growing tape of a program as a window on a tape without ends.

A program that checks its sums stops where they do not fit, so whatever it returns is right. One
that does not check them is only right where they fit.
-/

namespace TapeMachine

/-- A word can count the cells. -/
def Tape.Counted (tape : Tape) : Prop :=
  tape.cells.size < UInt64.size

instance (tape : Tape) : Decidable tape.Counted :=
  inferInstanceAs (Decidable (_ < _))

theorem Tape.resize_eq_growTo {tape : Tape} {size : Nat} (small : tape.cells.size ≤ size) :
    tape.resize size = tape.growTo size := by
  apply Tape.ext
  · rw [growTo_cells, resize, Array.take_eq_extract, Array.extract_eq_self_of_le small]
  · simp [resize]
  · simp [resize]
  · simp [resize]

namespace Arithmetic

/-- A program returns what unbounded numbers lead to where the numbers fit. One that checks its
sums returns nothing else, wherever it returns something. -/
structure Computes {α : Type} (arithmetic : Arithmetic) (fits : Prop) (ideal : α)
    (outcome : Option α) : Prop where
  returns : fits → outcome = some ideal
  checked : arithmetic = .checked → ∀ result, outcome = some result → result = ideal

namespace Computes

variable {α β : Type} {arithmetic : Arithmetic} {fits others : Prop} {ideal : α}
  {outcome : Option α}

theorem pure (arithmetic : Arithmetic) (fits : Prop) (ideal : α) :
    arithmetic.Computes fits ideal (some ideal) where
  returns := fun _ => rfl
  checked := fun _ _ found => (Option.some.inj found).symm

/-- A program that stops wherever the numbers do not fit cannot return anything else. -/
theorem of_fits (returns : fits → outcome = some ideal)
    (stops : arithmetic = .checked → ∀ result, outcome = some result → fits) :
    arithmetic.Computes fits ideal outcome where
  returns := returns
  checked := fun checks result found =>
    Option.some.inj (found.symm.trans (returns (stops checks result found)))

theorem weaken (computes : arithmetic.Computes fits ideal outcome) (enough : others → fits) :
    arithmetic.Computes others ideal outcome where
  returns := computes.returns ∘ enough
  checked := computes.checked

theorem map (computes : arithmetic.Computes fits ideal outcome) (f : α → β) :
    arithmetic.Computes fits (f ideal) (outcome.map f) where
  returns := by
    intro fitting
    rw [computes.returns fitting, Option.map_some]
  checked := by
    intro checks result found
    obtain ⟨value, returned, rfl⟩ := Option.map_eq_some_iff.mp found
    rw [computes.checked checks value returned]

theorem bind (computes : arithmetic.Computes fits ideal outcome) {next : α → Option β} {last : β}
    (continues : arithmetic.Computes others last (next ideal)) :
    arithmetic.Computes (fits ∧ others) last (outcome.bind next) where
  returns := by
    rintro ⟨fitting, rest⟩
    rw [computes.returns fitting, Option.bind_some, continues.returns rest]
  checked := by
    intro checks result found
    obtain ⟨value, returned, behind⟩ := Option.bind_eq_some_iff.mp found
    rw [computes.checked checks value returned] at behind
    exact continues.checked checks result behind

/-- What a program returns is right if it checks its sums or all of them fit. -/
theorem eq (computes : arithmetic.Computes fits ideal outcome) {result : α}
    (found : outcome = some result) (sound : arithmetic = .checked ∨ fits) : result = ideal := by
  rcases sound with checks | fitting
  · exact computes.checked checks result found
  · exact Option.some.inj (found.symm.trans (computes.returns fitting))

end Computes

/-! ## Sums and growth -/

theorem fits_of_checked_add? {first second result : Nat}
    (found : checked.add? first second = some result) : first + second < UInt64.size := by
  unfold add? allows at found
  simp_all

theorem computes_add? (arithmetic : Arithmetic) (first second : Nat) :
    arithmetic.Computes (first + second < UInt64.size) (first + second)
      (arithmetic.add? first second) := by
  refine .of_fits ?_ ?_
  · intro fitting
    simp [add?, allows, sum, fitting, Nat.mod_eq_of_lt fitting]
  · rintro rfl result found
    exact fits_of_checked_add? found

theorem computes_reach (arithmetic : Arithmetic) (tape : Tape) (index : Nat) :
    arithmetic.Computes (index < tape.cells.size ∨ index + 1 < UInt64.size)
      (tape.growTo (index + 1)) (arithmetic.reach tape index) := by
  unfold reach
  by_cases inside : index < tape.cells.size
  · rw [if_pos inside, Tape.growTo_of_le inside]
    exact .pure _ _ _
  · rw [if_neg inside, ← Tape.resize_eq_growTo (by omega)]
    exact ((arithmetic.computes_add? index 1).map tape.resize).weaken (Or.resolve_left · inside)

theorem fits_of_checked_growLeft {tape result : Tape} {count : Nat}
    (found : checked.growLeft tape count = some result) :
    ∀ slot ∈ tape.slots, slot.position + count < UInt64.size := by
  simp only [growLeft, Option.ite_none_right_eq_some, Array.all_eq_true', allows, reduceCtorEq,
    decide_false, Bool.false_or, decide_eq_true_eq] at found
  exact found.1

theorem computes_growLeft (arithmetic : Arithmetic) (tape : Tape) (count : Nat) :
    arithmetic.Computes (∀ slot ∈ tape.slots, slot.position + count < UInt64.size)
      (tape.growLeft count) (arithmetic.growLeft tape count) := by
  refine .of_fits ?_ ?_
  · intro fitting
    have allowed : (tape.slots.all fun slot => arithmetic.allows slot.position count) = true := by
      simp only [Array.all_eq_true', allows, Bool.or_eq_true, decide_eq_true_eq]
      exact fun slot member => .inr (fitting slot member)
    have stored : (tape.slots.map fun slot => { slot with position := sum slot.position count }) =
        tape.slots.map fun slot => { slot with position := slot.position + count } := by
      apply Array.map_congr_left
      intro slot member
      rw [sum, Nat.mod_eq_of_lt (fitting slot member)]
    rw [growLeft, if_pos allowed, stored]
    rfl
  · rintro rfl result found
    exact fits_of_checked_growLeft found

/-! ## Walks -/

/-- Every sum that a walk asks for is a word. -/
def SumsFit (tape : Tape) (id : CursorId) (count : Nat) : Direction → Prop
  | .right =>
      tape.slotPosition id + count < UInt64.size ∧
        (tape.slotPosition id + count < tape.cells.size ∨
          tape.slotPosition id + count + 1 < UInt64.size)
  | .left =>
      count ≤ tape.slotPosition id ∨
        ∀ slot ∈ tape.slots, slot.position + (count - tape.slotPosition id) < UInt64.size

theorem computes_walk (arithmetic : Arithmetic) (tape : Tape) (id : CursorId) (count : Nat)
    (direction : Direction) :
    arithmetic.Computes (SumsFit tape id count direction) (tape.walk id count direction)
      (arithmetic.walk tape id count direction) := by
  cases direction with
  | right =>
      exact (arithmetic.computes_add? _ count).bind
        ((arithmetic.computes_reach tape _).map fun reached => reached.place id _)
  | left =>
      simp only [walk, Tape.walk, SumsFit]
      by_cases short : count ≤ tape.slotPosition id
      · simp only [short, ↓reduceIte]
        exact .pure _ _ _
      · simp only [short, ↓reduceIte, false_or]
        exact (arithmetic.computes_growLeft tape _).map fun grown => grown.place id 0

/-- A program that checks its sums takes no walk on which one of them does not fit. -/
theorem sumsFit_of_checked {tape result : Tape} {id : CursorId} {count : Nat}
    {direction : Direction} (returned : checked.walk tape id count direction = some result) :
    SumsFit tape id count direction := by
  cases direction with
  | right =>
      obtain ⟨target, summed, behind⟩ := Option.bind_eq_some_iff.mp returned
      obtain rfl := (computes_add? _ _ _).checked rfl target summed
      refine ⟨fits_of_checked_add? summed, ?_⟩
      obtain ⟨reached, grown, -⟩ := Option.map_eq_some_iff.mp behind
      unfold reach at grown
      split at grown
      · exact .inl ‹_›
      · obtain ⟨size, counted, -⟩ := Option.map_eq_some_iff.mp grown
        exact .inr (fits_of_checked_add? counted)
  | left =>
      simp only [walk] at returned
      split at returned
      · exact .inl ‹_›
      · obtain ⟨grown, found, -⟩ := Option.map_eq_some_iff.mp returned
        exact .inr (fits_of_checked_growLeft found)

/-- Where a word can count the cells that a walk leads to, it can hold all positions on them. So the
single cells by which machines move their cursors overflow no sum. -/
theorem sumsFit_of_counted {tape : Tape} (seated : tape.Seated) {id : CursorId} {count : Nat}
    {direction : Direction} (counted : (tape.walk id count direction).Counted) :
    SumsFit tape id count direction := by
  rw [Tape.Counted, Tape.size_walk] at counted
  cases direction with
  | right =>
      simp only [Tape.deficit, Tape.surplus] at counted
      constructor <;> omega
  | left =>
      simp only [Tape.deficit, Tape.surplus] at counted
      refine .inr fun slot member => ?_
      have placed := seated.onCells slot member
      omega

/-- A shorter walk leads to no more cells. -/
theorem counted_walk_of_le {tape : Tape} {id : CursorId} {count longer : Nat}
    (shorter : count ≤ longer) {direction : Direction}
    (counted : (tape.walk id longer direction).Counted) :
    (tape.walk id count direction).Counted := by
  rw [Tape.Counted, Tape.size_walk] at counted ⊢
  cases direction <;> simp only [Tape.deficit, Tape.surplus] at counted ⊢ <;> omega

/-- A cursor's own sum is that of the counts, so only the sums of the others are compared. -/
theorem sumsFit_add_left {tape : Tape} {id : CursorId} (registered : id < tape.slots.size)
    {first second : Nat} (fits : first + second < UInt64.size) :
    SumsFit tape id (first + second) .left ↔
      SumsFit tape id first .left ∧ SumsFit (tape.walk id first .left) id second .left := by
  have position := Tape.slotPosition_walk_self tape registered first .left
  simp only [SumsFit, position, Tape.destination, Array.mem_iff_getElem?, Tape.getElem?_walk,
    Tape.deficit]
  constructor
  · rintro (short | long)
    · exact ⟨.inl (by omega), .inl (by omega)⟩
    · refine ⟨.inr fun slot present => ?_, ?_⟩
      · have whole := long slot present
        omega
      · by_cases short : second ≤ tape.slotPosition id - first
        · exact .inl short
        · refine .inr ?_
          rintro slot ⟨other, stands⟩
          obtain ⟨before, stood, rfl⟩ := Option.map_eq_some_iff.mp stands
          have whole := long before ⟨other, stood⟩
          simp only
          split <;> omega
  · rintro ⟨begun, ended⟩
    by_cases short : first + second ≤ tape.slotPosition id
    · exact .inl short
    · refine .inr ?_
      rintro slot ⟨other, stands⟩
      by_cases same : id = other
      · subst same
        have own : tape.slotPosition id = slot.position := by simp [Tape.slotPosition, stands]
        omega
      · rcases ended with done | rest
        · have part := begun.resolve_left (by omega) slot ⟨other, stands⟩
          omega
        · have part := rest _ ⟨other, Option.map_eq_some_iff.mpr ⟨slot, stands, rfl⟩⟩
          simp only [same, ↓reduceIte] at part
          omega

/-- The sums of a long walk fit if and only if those of its two parts do. -/
theorem sumsFit_add {tape : Tape} {id : CursorId} (registered : id < tape.slots.size)
    {first second : Nat} (fits : first + second < UInt64.size) (direction : Direction) :
    SumsFit tape id (first + second) direction ↔
      SumsFit tape id first direction ∧
        SumsFit (tape.walk id first direction) id second direction := by
  cases direction with
  | right =>
      have position := Tape.slotPosition_walk_self tape registered first .right
      simp only [SumsFit, position, Tape.size_walk, Tape.destination, Tape.deficit, Tape.surplus]
      omega
  | left => exact sumsFit_add_left registered fits

/-! ## Operations and requests -/

theorem computes_register (arithmetic : Arithmetic) {tape : Tape} (seated : tape.Seated)
    (start : Int) :
    arithmetic.Computes (tape.register start).1.Counted (tape.register start)
      (arithmetic.register tape start) := by
  have added := seated.mirrors.push.seated
  have registered : tape.slots.size < (tape.slots.push ⟨0, true⟩).size := by simp
  by_cases edge : start = 0
  · have unmoved := Tape.walk_zero _ (added.onTape registered) .right
    simp only [register, Tape.register, edge, ↓reduceIte, Int.natAbs_zero, Int.lt_irrefl,
      Option.map_some, unmoved]
    exact .pure _ _ _
  · simp only [register, edge, ↓reduceIte]
    exact ((arithmetic.computes_walk _ _ _ _).weaken (sumsFit_of_counted added)).map
      fun walked => (walked, tape.slots.size)

theorem fits_of_counted_growTo {tape : Tape} {index : Nat}
    (counted : (tape.growTo (index + 1)).Counted) :
    index < tape.cells.size ∨ index + 1 < UInt64.size := by
  rw [Tape.Counted, Tape.growTo_size] at counted
  omega

theorem computes_reset (arithmetic : Arithmetic) (tape : Tape) (resetCursors : Bool) :
    arithmetic.Computes (tape.reset resetCursors).Counted (tape.reset resetCursors)
      (arithmetic.reset tape resetCursors) := by
  cases resetCursors with
  | true => exact .pure _ _ _
  | false => exact (arithmetic.computes_reach _ _).weaken fits_of_counted_growTo

theorem computes_load (arithmetic : Arithmetic) (tape : Tape) (initial : List Char) :
    arithmetic.Computes (tape.load initial).Counted (tape.load initial)
      (arithmetic.load tape initial) :=
  arithmetic.computes_reset _ false

theorem computes_respond (arithmetic : Arithmetic) {tape : Tape} (seated : tape.Seated)
    (request : TapeRequest) :
    arithmetic.Computes (tape.respond request).2.Counted (tape.respond request)
      (arithmetic.respond tape request) := by
  cases refused : request.uses?.bind tape.refusal? with
  | some error =>
      rw [Tape.respond_refused refused, arithmetic.respond_refused refused]
      exact .pure _ _ _
  | none =>
      cases request with
      | register start =>
          exact (arithmetic.computes_register seated start).map fun registered =>
            (TapeAnswer.cursor registered.2, registered.1)
      | unregister id => exact .pure _ _ _
      | move id count direction =>
          simp only [TapeRequest.uses?, Option.bind_some] at refused
          simp only [respond, move, Tape.answer_permitted refused, Tape.respond, Tape.move, refused]
          exact ((arithmetic.computes_walk _ _ _ _).weaken (sumsFit_of_counted seated)).map
            fun moved => (TapeAnswer.done, moved)
      | read id =>
          have ready := seated.ready ((tape.refusal?_eq_none_iff id).mp refused)
          obtain ⟨glyph, answered, ideal, -⟩ := ready.respond_read arithmetic
          rw [answered, ideal]
          exact .pure _ _ _
      | write id glyph =>
          have ready := seated.ready ((tape.refusal?_eq_none_iff id).mp refused)
          obtain ⟨written, answered, ideal, -⟩ := ready.respond_write arithmetic glyph
          rw [answered, ideal]
          exact .pure _ _ _
      | position id =>
          simp only [TapeRequest.uses?, Option.bind_some] at refused
          simp only [respond, Tape.answer_permitted refused, Tape.respond, Tape.position, refused,
            Option.map_some]
          exact .pure _ _ _

/-- No request takes cells away, so where the cells can be counted at the end, they could be all
along. -/
theorem computes_respondAll (arithmetic : Arithmetic) {tape : Tape} (seated : tape.Seated)
    (requests : List TapeRequest) :
    arithmetic.Computes (tape.respondAll requests).2.Counted (tape.respondAll requests)
      (arithmetic.respondAll tape requests) := by
  induction requests generalizing tape with
  | nil => exact .pure _ _ _
  | cons request others inductionHypothesis =>
      have first := arithmetic.computes_respond seated request
      have rest := (inductionHypothesis (seated.respond request)).map fun rest =>
        ((tape.respond request).1 :: rest.1, rest.2)
      refine (first.bind rest).weaken fun counted => ⟨?_, counted⟩
      exact Nat.lt_of_le_of_lt (Tape.size_le_respondAll _ others) counted

end Arithmetic

/-! ## The growing tape as a window -/

/-- Whatever clients ask of a tape that was loaded without cursors, a program answers as long as a
word can count the cells that were reached. Its answers are those of the infinite tape, wherever
it checks its sums or they fit; the cells are those that were reached, and every cursor, dead or
alive, stands on the coordinate of its marker. Use of an unknown or dead cursor is refused and
changes nothing, and so does unregistering one, which is never refused. -/
theorem growing_tape_refines_infinite (arithmetic : Arithmetic) (tape : Tape)
    (bare : tape.slots = #[]) (text : List Char) (requests : List TapeRequest) :
    let outcome := (arithmetic.load tape text).bind (arithmetic.respondAll · requests)
    let ideal := (InfiniteTape.ofText text tape.fill).respondAll requests
    let counted := ideal.2.reached.length < UInt64.size
    (counted → ∃ grown, outcome = some grown) ∧
      ∀ grown, outcome = some grown → arithmetic = .checked ∨ counted →
        grown.1 = ideal.1 ∧ Mirrors grown.2 ideal.2 ∧
          (∀ request id error, request.uses? = some id → ideal.2.usable id = .error error →
            arithmetic.respond grown.2 request = some (.refused error, grown.2)) ∧
          ∀ id error, ideal.2.usable id = .error error →
            arithmetic.respond grown.2 (.unregister id) = some (.done, grown.2) := by
  intro outcome ideal counted
  obtain ⟨answers, mirrors⟩ := (Mirrors.load bare text).respondAll requests
  have length : ((tape.load text).respondAll requests).2.cells.size = ideal.2.reached.length := by
    rw [← Array.length_toList, mirrors.cells]
  have computes : arithmetic.Computes counted ((tape.load text).respondAll requests) outcome := by
    refine ((arithmetic.computes_load tape text).bind
      (arithmetic.computes_respondAll (tape.seated_load text) requests)).weaken fun counts => ?_
    have last : ((tape.load text).respondAll requests).2.Counted := by rwa [Tape.Counted, length]
    exact ⟨Nat.lt_of_le_of_lt (Tape.size_le_respondAll _ requests) last, last⟩
  refine ⟨fun counts => ⟨_, computes.returns counts⟩, fun grown returned sound => ?_⟩
  obtain rfl := computes.eq returned sound
  refine ⟨answers, mirrors, ?_, ?_⟩
  · intro request id error uses unusable
    exact arithmetic.respond_refused (mirrors.refused_of_unusable uses unusable)
  · intro id error unusable
    exact congrArg (fun tape => some (TapeAnswer.done, tape)) (mirrors.unregister_unusable unusable)

/-- A cursor walks past the left edge, and another one still reads its character. -/
theorem growing_tape_refines_infinite_past_left_edge :
    let requests : List TapeRequest :=
      [.register 0, .register 2, .move 0 3 .left, .read 1, .position 1]
    let ideal := (InfiniteTape.ofText ['x', 'y', 'z'] '_').respondAll requests
    (Tape.blank '_').slots = #[] ∧ ideal.2.reached.length < UInt64.size ∧
      ideal.1 = [.cursor 0, .cursor 1, .done, .glyph 'z', .position 5] ∧
      ∃ grown, (Arithmetic.wrapping.load (Tape.blank '_') ['x', 'y', 'z']).bind
          (Arithmetic.wrapping.respondAll · requests) = some grown ∧ grown.1 = ideal.1 := by
  intro requests ideal
  have counted : ideal.2.reached.length < UInt64.size := by decide +kernel
  obtain ⟨returns, right⟩ :=
    growing_tape_refines_infinite .wrapping (Tape.blank '_') rfl ['x', 'y', 'z'] requests
  obtain ⟨grown, returned⟩ := returns counted
  exact ⟨rfl, counted, by decide +kernel, grown, returned, (right grown returned (.inr counted)).1⟩

/-- Unregistering is the one operation on a cursor that reports no error for an unknown one. -/
theorem unregister_unknown_not_refused :
    (InfiniteTape.ofText [] '_').usable 5 = .error (.unknownCursor 5) ∧
      ((Arithmetic.checked.load (Tape.blank '_') []).bind
        (Arithmetic.checked.respond · (.unregister 5))).map Prod.fst = some .done := by
  constructor
  · rfl
  · decide +kernel

end TapeMachine
