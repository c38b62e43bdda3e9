import TapeMachine.Code.Listing
import TapeMachine.Machine.Step
import TapeMachine.Proofs.Code.Jump
import TapeMachine.Proofs.Text.Decimal

/-!
Contract: what a reader may conclude from a listing.

Owns: the reading of instructions from the lines of a listing, the lines that are marked and the
targets that are shown, and where a machine goes on that takes a listed jump.

Does not own: the text of a whole program's listing, which does not tell its lines apart where the
name of a label holds a line feed.
-/

namespace TapeMachine

/-! ## An instruction from its text -/

/-- A character is told from the other values by its quotes: no number begins with one. -/
def Value.ofText? (text : List Char) : Option Value :=
  match Text.integer? text with
  | some value => some (.number value)
  | none =>
      match text with
      | ['\'', glyph, '\''] => some (.character glyph)
      | _ =>
          if text = "true".toList then some (.boolean true)
          else if text = "false".toList then some (.boolean false)
          else none

theorem Value.ofText?_text (value : Value) : ofText? value.text = some value := by
  cases value with
  | number value => simp only [text, ofText?, Text.integer?_integer]
  | character glyph => rfl
  | boolean truth => cases truth <;> rfl

def Comparison.ofSymbol? : String → Option Comparison
  | "=" => some (.binary .equal)
  | "!=" => some (.binary .notEqual)
  | "<" => some (.binary .less)
  | ">" => some (.binary .greater)
  | "<=" => some (.binary .lessEq)
  | ">=" => some (.binary .greaterEq)
  | "&" => some (.binary .and)
  | "|" => some (.binary .or)
  | "!" => some .negation
  | _ => none

theorem Comparison.ofSymbol?_symbol (comparison : Comparison) :
    ofSymbol? comparison.symbol = some comparison := by
  cases comparison with
  | binary op => cases op <;> rfl
  | negation => rfl

namespace Instruction

/-- Reads an instruction by its mnemonic, the first word, and the operand from the column where
operands begin. The offset of a jump ends at a blank, since the target may be shown behind it; the
name of a label takes the rest, blanks included. -/
def ofText? (text : List Char) : Option Instruction :=
  let operand := text.drop 12
  let offset? := Text.integer? (operand.takeWhile (· ≠ ' '))
  match String.ofList (text.takeWhile (· ≠ ' ')) with
  | "PUSH" => (Value.ofText? operand).map .push
  | "DUP" => some .duplicate
  | "CMP" => (Comparison.ofSymbol? (String.ofList operand)).map .compare
  | "READ" => some .read
  | "WRITE" => some .write
  | "MOVE_LEFT" => some (.move .left)
  | "MOVE_RIGHT" => some (.move .right)
  | "JUMP" => offset?.map .jump
  | "JUMP_IF" => offset?.map .jumpIf
  | "CALL" => some (.call (String.ofList operand))
  | "HALT" => some .halt
  | _ => none

/-- What a line shows behind the text of an instruction. -/
def trail (instruction : Instruction) (index : Nat) : List Char :=
  match instruction.target? index with
  | some target =>
      List.replicate (20 - instruction.text.length) ' ' ++ " ; -> ".toList ++ indexText target
  | none => []

/-- Whatever a line shows behind a text is apart from it by a blank. -/
theorem eq_blank_of_head_trail {instruction : Instruction} {index : Nat} {glyph : Char}
    (begins : (instruction.trail index).head? = some glyph) : glyph = ' ' := by
  unfold trail at begins
  split at begins
  · generalize 20 - instruction.text.length = columns at begins
    cases columns <;> exact (Option.some.inj begins).symm
  · contradiction

theorem trail_of_not_jump {instruction : Instruction} (goesOn : instruction.jumpOffset? = none)
    (index : Nat) : instruction.trail index = [] := by
  rw [trail, target?, goesOn]
  rfl

theorem takeWhile_signed_append (offset : Int) {others : List Char}
    (apart : ∀ glyph, others.head? = some glyph → glyph = ' ') :
    (Text.signed offset ++ others).takeWhile (· ≠ ' ') = Text.signed offset := by
  have solid : ∀ glyph ∈ Text.signed offset, decide (glyph ≠ ' ') = true := by
    intro glyph member
    refine decide_eq_true ?_
    rintro rfl
    rcases Text.mem_signed member with plus | minus | digit <;> contradiction
  have stops : others.takeWhile (· ≠ ' ') = [] := by
    cases others with
    | nil => rfl
    | cons first rest => simp [apart first rfl]
  rw [List.takeWhile_append_of_pos solid, stops, List.append_nil]

/-- The offset is read off in front of whatever the line shows behind it. -/
theorem integer?_offset (offset : Int) (instruction : Instruction) (index : Nat) :
    Text.integer? ((Text.signed offset ++ instruction.trail index).takeWhile (· ≠ ' ')) =
      some offset := by
  rw [takeWhile_signed_append offset fun _ => eq_blank_of_head_trail, Text.integer?_signed]

theorem ofText?_text_trail (instruction : Instruction) (index : Nat) :
    ofText? (instruction.text ++ instruction.trail index) = some instruction := by
  cases instruction with
  | push value =>
      rw [trail_of_not_jump rfl, List.append_nil]
      exact congrArg (Option.map Instruction.push) value.ofText?_text
  | compare comparison =>
      rw [trail_of_not_jump rfl, List.append_nil]
      have read : ofText? (text (.compare comparison)) =
          (Comparison.ofSymbol? (String.ofList comparison.symbol.toList)).map .compare := rfl
      rw [read, String.ofList_toList, comparison.ofSymbol?_symbol]
      rfl
  | jump offset =>
      exact congrArg (Option.map Instruction.jump) (integer?_offset offset (.jump offset) index)
  | jumpIf offset =>
      exact congrArg (Option.map Instruction.jumpIf) (integer?_offset offset (.jumpIf offset) index)
  | call label =>
      rw [trail_of_not_jump rfl, List.append_nil]
      have read : ofText? (text (.call label)) = some (.call (String.ofList label.toList)) := rfl
      rw [read, String.ofList_toList]
  | move direction => cases direction <;> rfl
  | duplicate | read | write | halt => rfl

end Instruction

/-! ## The parts of a line -/

theorem isDigit_of_mem_indexText (index : Nat) :
    ∀ glyph ∈ indexText index, glyph.isDigit = true :=
  Text.isDigit_of_mem_padLeft (Text.isDigit_of_mem_decimal index)

theorem indexText_injective : Function.Injective indexText := by
  have value (index : Nat) : Text.decimalValue (indexText index) = index := by
    rw [indexText, Text.padLeft, Text.decimalValue_zeros, Text.decimalValue_decimal]
  exact Function.LeftInverse.injective value

def markColumns (marked : Bool) : List Char :=
  if marked then "► ".toList else "  ".toList

theorem listingLine_eq (marked : Bool) (index : Nat) (instruction : Instruction) :
    listingLine marked index instruction =
      indexText index ++ ' ' :: (markColumns marked ++
        (instruction.text ++ instruction.trail index)) := by
  unfold listingLine Instruction.trail
  cases instruction.target? index with
  | none => simp [markColumns]
  | some target => simp [markColumns, Text.padRight]

theorem dropWhile_isDigit_append {digits : List Char} (are : ∀ glyph ∈ digits, glyph.isDigit = true)
    (rest : List Char) : (digits ++ ' ' :: rest).dropWhile Char.isDigit = ' ' :: rest := by
  rw [List.dropWhile_append_of_pos are]
  rfl

/-! ## A sequence from its listing -/

/-- Reads the instruction of a line: the digits of the index, a blank and the two columns of the
mark stand in front of it. -/
def readLine? (line : List Char) : Option Instruction :=
  Instruction.ofText? ((line.dropWhile Char.isDigit).drop 3)

theorem readLine?_listingLine (marked : Bool) (index : Nat) (instruction : Instruction) :
    readLine? (listingLine marked index instruction) = some instruction := by
  rw [readLine?, listingLine_eq, dropWhile_isDigit_append (isDigit_of_mem_indexText index)]
  have behind : (' ' :: (markColumns marked ++ (instruction.text ++ instruction.trail index))).drop 3 =
      instruction.text ++ instruction.trail index := by
    cases marked <;> rfl
  rw [behind, Instruction.ofText?_text_trail]

theorem map_readLine?_listing (instructions : List Instruction) :
    (listing instructions).map readLine? = instructions.map some := by
  rw [listing, List.map_map]
  have reads : (readLine? ∘ fun entry : Instruction × Nat =>
      listingLine ((jumpTargets instructions).contains entry.2) entry.2 entry.1) =
        some ∘ Prod.fst := by
    funext entry
    exact readLine?_listingLine _ _ _
  rw [reads, ← List.map_map, List.zipIdx_map_fst]

theorem eq_of_listing_eq {instructions others : List Instruction}
    (same : listing instructions = listing others) : instructions = others := by
  have read := congrArg (List.map readLine?) same
  rw [map_readLine?_listing, map_readLine?_listing] at read
  exact List.map_inj_right (fun _ _ => Option.some.inj) |>.mp read

theorem getElem?_listing {instructions : List Instruction} {index : Nat} {instruction : Instruction}
    (found : instructions[index]? = some instruction) :
    (listing instructions)[index]? =
      some (listingLine ((jumpTargets instructions).contains index) index instruction) := by
  simp [listing, found]

/-! ## Marks -/

/-- A line with a mark between its index and its instruction. -/
def Marked (line : List Char) : Prop :=
  ∃ digits rest, (∀ glyph ∈ digits, glyph.isDigit = true) ∧ line = digits ++ " ► ".toList ++ rest

theorem marked_listingLine (marked : Bool) (index : Nat) (instruction : Instruction) :
    Marked (listingLine marked index instruction) ↔ marked = true := by
  rw [listingLine_eq]
  constructor
  · rintro ⟨digits, rest, are, same⟩
    have behind := congrArg (List.dropWhile Char.isDigit) same
    rw [dropWhile_isDigit_append (isDigit_of_mem_indexText index), List.append_assoc] at behind
    replace behind := behind.trans (dropWhile_isDigit_append are ('►' :: ' ' :: rest))
    cases marked with
    | true => rfl
    | false => exact absurd (List.cons.inj (List.cons.inj behind).2).1 (by decide)
  · rintro rfl
    refine ⟨indexText index, instruction.text ++ instruction.trail index,
      isDigit_of_mem_indexText index, ?_⟩
    simp [markColumns]

theorem mem_jumpTargets {instructions : List Instruction} {target : Nat} :
    target ∈ jumpTargets instructions ↔ ∃ source, JumpsTo instructions.toArray source target := by
  constructor
  · intro member
    obtain ⟨⟨instruction, source⟩, among, leads⟩ := List.mem_filterMap.mp member
    exact ⟨source, instruction, by simpa using List.mem_zipIdx_iff_getElem?.mp among, leads⟩
  · rintro ⟨source, instruction, found, leads⟩
    exact List.mem_filterMap.mpr
      ⟨⟨instruction, source⟩, List.mem_zipIdx_iff_getElem?.mpr (by simpa using found), leads⟩

/-! ## Targets -/

/-- A line ends with an arrow to an index. -/
def ShowsTarget (line : List Char) (target : Nat) : Prop :=
  ∃ front, line = front ++ " ; -> ".toList ++ indexText target

/-- The digits behind the last blank of a text are determined by the text. -/
theorem eq_of_append_digits {front other digits numerals : List Char}
    (same : front ++ ' ' :: digits = other ++ ' ' :: numerals)
    (are : ∀ glyph ∈ digits, glyph.isDigit = true)
    (areToo : ∀ glyph ∈ numerals, glyph.isDigit = true) : digits = numerals := by
  have row (begins : List Char) {ends : List Char} (are : ∀ glyph ∈ ends, glyph.isDigit = true) :
      (begins ++ ' ' :: ends).reverse.takeWhile Char.isDigit = ends.reverse := by
    rw [List.reverse_append, List.reverse_cons, List.append_assoc, List.takeWhile_append_of_pos
      fun glyph member => are glyph (List.mem_reverse.mp member)]
    exact List.append_nil _
  have reversed := congrArg (fun text => text.reverse.takeWhile Char.isDigit) same
  rw [row front are, row other areToo] at reversed
  exact List.reverse_inj.mp reversed

theorem showsTarget_arrow (front : List Char) (reached target : Nat) :
    ShowsTarget (front ++ " ; -> ".toList ++ indexText reached) target ↔ reached = target := by
  constructor
  · rintro ⟨other, same⟩
    have split (lead digits : List Char) :
        lead ++ " ; -> ".toList ++ digits = (lead ++ " ; ->".toList) ++ ' ' :: digits := by
      simp
    rw [split, split] at same
    exact indexText_injective (eq_of_append_digits same (isDigit_of_mem_indexText reached)
      (isDigit_of_mem_indexText target))
  · rintro rfl
    exact ⟨front, rfl⟩

theorem semicolon_mem_of_showsTarget {line : List Char} {target : Nat}
    (arrow : ShowsTarget line target) : ';' ∈ line := by
  obtain ⟨front, rfl⟩ := arrow
  simp

theorem semicolon_notMem_text {instruction : Instruction} {offset : Int}
    (jumps : instruction.jumpOffset? = some offset) : ';' ∉ instruction.text := by
  have signed : ';' ∉ Text.signed offset := by
    intro member
    rcases Text.mem_signed member with plus | minus | digit <;> contradiction
  cases instruction with
  | jump _ | jumpIf _ =>
      obtain rfl := Option.some.inj jumps
      intro member
      rcases List.mem_append.mp member with mnemonic | member
      · exact absurd mnemonic (by decide +kernel)
      · exact signed member
  | _ => contradiction

/-- What a jump shows of itself has no semicolon, so that an arrow stands only in front of its
target. -/
theorem showsTarget_listingLine (marked : Bool) (index target : Nat) {instruction : Instruction}
    {offset : Int} (jumps : instruction.jumpOffset? = some offset) :
    ShowsTarget (listingLine marked index instruction) target ↔
      jumpTarget index offset = some target := by
  have leads : instruction.target? index = jumpTarget index offset := by
    rw [Instruction.target?, jumps]
    rfl
  rw [listingLine_eq, Instruction.trail, leads]
  cases jumpTarget index offset with
  | some reached =>
      have arrow := showsTarget_arrow (indexText index ++ ' ' :: (markColumns marked ++
        (instruction.text ++ List.replicate (20 - instruction.text.length) ' '))) reached target
      simpa using arrow
  | none =>
      have absent : ';' ∉ indexText index ++ ' ' :: (markColumns marked ++
          (instruction.text ++ [])) := by
        intro member
        rcases List.mem_append.mp member with digit | member
        · exact absurd (isDigit_of_mem_indexText index _ digit) (by decide)
        rcases List.mem_cons.mp member with blank | member
        · contradiction
        rcases List.mem_append.mp member with mark | member
        · cases marked <;> exact absurd mark (by decide +kernel)
        · exact semicolon_notMem_text jumps (by simpa using member)
      exact iff_of_false (fun arrow => absent (semicolon_mem_of_showsTarget arrow)) (by simp)

/-! ## Where a machine goes on -/

namespace Machine

/-- A machine is at a jump of its sequence and takes it: one that goes on, or one that tests a value
and finds it true. -/
structure TakesJump (machine : Machine) (code : Array Instruction) (index : Nat) (offset : Int) :
    Prop where
  still : machine.walk = none
  active : machine.active = some code
  place : machine.index = index
  takes : code[index]? = some (.jump offset) ∨
    code[index]? = some (.jumpIf offset) ∧ machine.stack.head? = some (.boolean true)

/-- A machine goes on at an index: with the instruction there, or with none at the end of its
sequence. -/
def GoesOnAt (machine : Machine) (code : Array Instruction) (index : Nat) : Prop :=
  machine.nextInstruction? = code[index]? ∧
    (index < code.size → machine.active = some code ∧ machine.nextIndex? = some index) ∧
    (code.size ≤ index → machine.hasMoreWork = false)

theorem goesOnAt_settle {machine : Machine} {code : Array Instruction} {index : Nat}
    (still : machine.walk = none) (active : machine.active = some code)
    (place : machine.index = index) : machine.settle.GoesOnAt code index := by
  subst place
  by_cases inside : machine.index < code.size
  · have same : machine.settle = machine := by
      simp [settle, still, active, Nat.not_le_of_lt inside]
    rw [same]
    refine ⟨?_, fun _ => ⟨active, ?_⟩, fun beyond => absurd inside (Nat.not_lt_of_le beyond)⟩
    · simp [nextInstruction?, Machine.instructions, active]
    · simp [nextIndex?, active]
  · have beyond := Nat.le_of_not_lt inside
    have same : machine.settle = machine.finish := by
      simp [settle, still, active, beyond]
    rw [same]
    refine ⟨?_, fun within => absurd within inside, fun _ => rfl⟩
    rw [Array.getElem?_eq_none beyond]
    rfl

section Steps

variable {machine : Machine} {code : Array Instruction} {index : Nat} {offset : Int}

/-- Executing a jump that is taken sets the index to the target and drops the tested value. -/
theorem TakesJump.execute_eq (takes : machine.TakesJump code index offset)
    (glyph : Except TapeError Char) :
    ∃ instruction rest, code[index]? = some instruction ∧
      machine.countStep.execute glyph instruction =
        match jumpTarget index offset with
        | some target =>
            .ok ({ machine.countStep with index := target, stack := rest }, .none)
        | none => .error (.jumpOutOfRange index offset) := by
  obtain ⟨-, -, rfl, jump | ⟨jump, truth⟩⟩ := takes
  · refine ⟨.jump offset, machine.stack, jump, ?_⟩
    simp only [execute, relocate, countStep]
    cases jumpTarget machine.index offset <;> rfl
  · obtain ⟨rest, same⟩ : ∃ rest, machine.stack = .boolean true :: rest :=
      List.head?_eq_some_iff.mp truth
    refine ⟨.jumpIf offset, rest, jump, ?_⟩
    simp only [execute, relocate, countStep, same]
    cases jumpTarget machine.index offset <;> rfl

theorem TakesJump.goesOn (takes : machine.TakesJump code index offset) {target : Nat}
    (leads : jumpTarget index offset = some target) (tape : Tape) (cursor : CursorId) :
    ∃ next, machine.step tape cursor = (.ok next, tape) ∧ next.GoesOnAt code target := by
  obtain ⟨instruction, rest, found, executed⟩ := takes.execute_eq (tape.read cursor)
  obtain ⟨still, active, rfl, -⟩ := takes
  rw [leads] at executed
  refine ⟨({ machine.countStep with index := target, stack := rest } : Machine).settle, ?_,
    goesOnAt_settle still active rfl⟩
  simp [step, plan, still, active, found, executed, Effect.refusal?, Effect.perform]

theorem TakesJump.faults (takes : machine.TakesJump code index offset)
    (nowhere : jumpTarget index offset = none) (tape : Tape) (cursor : CursorId) :
    machine.step tape cursor = (.error (.jumpOutOfRange index offset), tape) := by
  obtain ⟨instruction, rest, found, executed⟩ := takes.execute_eq (tape.read cursor)
  obtain ⟨still, active, rfl, -⟩ := takes
  rw [nowhere] at executed
  simp [step, plan, still, active, found, executed]

end Steps

end Machine

/-- Equal listings are listings of equal sequences. A listing has a line for each instruction, which
begins with its index, and is marked if and only if some jump of the sequence leads there. A line of
a jump shows a target if and only if the jump has that target, and there a machine goes on that
takes the jump; where no target is shown, taking the jump is a fault. -/
theorem listing_injective_and_exact :
    Function.Injective listing ∧
      ∀ instructions : List Instruction, (listing instructions).length = instructions.length ∧
        ∀ index instruction, instructions[index]? = some instruction →
          ∃ line, (listing instructions)[index]? = some line ∧
            (∃ rest, line = indexText index ++ ' ' :: rest) ∧
            (Marked line ↔ ∃ source, JumpsTo instructions.toArray source index) ∧
            ∀ offset, instruction.jumpOffset? = some offset →
              (∀ target, ShowsTarget line target ↔ jumpTarget index offset = some target) ∧
              ∀ machine : Machine, machine.TakesJump instructions.toArray index offset →
                ∀ tape cursor,
                  (∀ target, ShowsTarget line target →
                    ∃ next, machine.step tape cursor = (.ok next, tape) ∧
                      next.GoesOnAt instructions.toArray target) ∧
                  ((∀ target, ¬ ShowsTarget line target) →
                    machine.step tape cursor = (.error (.jumpOutOfRange index offset), tape)) := by
  refine ⟨fun _ _ => eq_of_listing_eq, fun instructions => ⟨by simp [listing], ?_⟩⟩
  intro index instruction found
  refine ⟨_, getElem?_listing found, ⟨_, listingLine_eq _ index instruction⟩, ?_, ?_⟩
  · rw [marked_listingLine, List.contains_iff_mem, mem_jumpTargets]
  · intro offset jumps
    have targets (target : Nat) :=
      showsTarget_listingLine ((jumpTargets instructions).contains index) index target jumps
    refine ⟨targets, fun machine takes tape cursor => ⟨?_, ?_⟩⟩
    · intro target shown
      exact takes.goesOn ((targets target).mp shown) tape cursor
    · intro unshown
      refine takes.faults ?_ tape cursor
      cases leads : jumpTarget index offset with
      | none => rfl
      | some target => exact absurd ((targets target).mpr leads) (unshown target)

/-- A loop whose condition holds: the test jumps over the halt to the jump back. -/
def endlessLoop : List Instruction :=
  [.push (.boolean true), .jumpIf 1, .halt, .jump (-3)]

/-- A machine in front of the jump back. -/
def endlessMachine : Machine :=
  { Machine.start ⟨⟨endlessLoop.toArray, #[]⟩, .empty⟩ with index := 3 }

/-- The line of the jump back is marked, since the test leads there, and shows where the loop
begins. -/
theorem listing_injective_and_exact_endlessLoop :
    ∃ line, (listing endlessLoop)[3]? = some line ∧
      line = "0003 ► JUMP        -3       ; -> 0000".toList ∧ Marked line ∧ ShowsTarget line 0 ∧
      ∃ next, endlessMachine.step (.blank '_') 0 = (.ok next, .blank '_') ∧
        next.GoesOnAt endlessLoop.toArray 0 := by
  obtain ⟨line, listed, -, marked, targets⟩ :=
    (listing_injective_and_exact.2 endlessLoop).2 3 (.jump (-3)) rfl
  obtain ⟨shown, goesOn⟩ := targets (-3) rfl
  have takes : endlessMachine.TakesJump endlessLoop.toArray 3 (-3) := ⟨rfl, rfl, rfl, .inl rfl⟩
  have arrow : ShowsTarget line 0 := (shown 0).mpr rfl
  refine ⟨line, listed, ?_, marked.mpr ⟨1, .jumpIf 1, rfl, rfl⟩, arrow,
    (goesOn endlessMachine takes (.blank '_') 0).1 0 arrow⟩
  rw [← Option.some.injEq, ← listed]
  decide +kernel

end TapeMachine
