import TapeMachine.Proofs.Token.Request

/-!
Contract: a buffer never counts below zero.

Owns: the requests to a buffer with counters that fail where they would go below zero, the balance
of the counters with what has been read, and the agreement of these requests with those that cannot
fail.

Lowering a natural number stops at zero without a trace, so a buffer cannot show that it never gets
there. Two places lower a counter: reading a character of an insertion, and taking back the reading
of a line break.

A buffer does not log the characters of insertions, although it counts their line breaks. A tally
keeps them for it.
-/

namespace TapeMachine

/-- A buffer, and the characters of tracked insertions that were read since the checkpoint was set
or returned to, latest first. -/
structure Tally where
  buffer : Buffer
  insertions : List Char

inductive Underflow where
  | insertions
  | line
deriving DecidableEq, Repr

/-- Requests to a buffer, one after the other, until a counter would go below zero. -/
abbrev Counting (α : Type) : Type := EStateM Underflow Tally α

namespace Counting

variable {α β : Type}

/-! ## What lowers a counter or moves the checkpoint -/

def read : Counting (Option Char) := fun tally =>
  let filled := tally.buffer.fill 1
  match filled.unread with
  | [] => .ok none { tally with buffer := filled }
  | next :: rest =>
      if next.inserted ∧ filled.insertedCount = 0 then .error .insertions tally
      else
        .ok (some next.glyph)
          { buffer := filled.take next rest
            insertions :=
              if next.inserted then next.glyph :: tally.insertions else tally.insertions }

/-- An ordinary character that is on top of the log takes its reading back. -/
def pushGlyph (tracked : Bool) (glyph : Char) : Counting Unit := fun tally =>
  if tracked = false ∧ tally.buffer.log.head? = some glyph ∧ breaksLine glyph ∧
      tally.buffer.line = 0 then
    .error .line tally
  else .ok () { tally with buffer := tally.buffer.pushGlyph tracked glyph }

def rewind : Counting Unit := fun tally =>
  .ok () ⟨tally.buffer.rewind, []⟩

def checkpoint : Counting Unit := fun tally =>
  .ok () ⟨tally.buffer.checkpoint, []⟩

/-- Asks the buffer for something that changes none of this. -/
def ask (step : Buffer → α × Buffer) : Counting α := fun tally =>
  .ok (step tally.buffer).1 { tally with buffer := (step tally.buffer).2 }

/-! ## Requests -/

/-- Puts the characters of a text in front, the last one first. -/
def pushAll (tracked : Bool) : List Char → Counting Unit
  | [] => return ()
  | glyph :: others => do
      pushAll tracked others
      pushGlyph tracked glyph

def push (text : List Char) (tracked fold : Bool) : Counting Unit := do
  pushAll tracked text
  if fold then rewind

def readText : List Char → Counting Bool
  | [] => return true
  | expected :: others => do
      match ← read with
      | some glyph => if glyph = expected then readText others else return false
      | none => return false

def readSpelling (text : List Char) : Counting (Option (List Char)) := do
  if ← readText text then
    if text.all isIdentifierPart then
      match ← ask (·.peek 0) with
      | some glyph => return if isIdentifierPart glyph then none else some text
      | none => return some text
    else return some text
  else return none

def readLiteral : Counting (Option (List Char)) := do
  match ← read with
  | some '\'' =>
      match ← read with
      | some glyph =>
          match ← read with
          | some '\'' => return some ['\'', glyph, '\'']
          | _ => return none
      | none => return none
  | _ => return none

/-- Reading uses a character up, or there is none. -/
theorem stock_lt_of_read {tally behind : Tally} {glyph : Char}
    (step : read tally = .ok (some glyph) behind) : behind.buffer.stock < tally.buffer.stock := by
  have bound := tally.buffer.stock_fill 1
  simp only [read] at step
  split at step
  next => simp at step
  next next rest front =>
    split at step
    next => contradiction
    next =>
      obtain ⟨-, rfl⟩ := EStateM.Result.ok.inj step
      exact Nat.lt_of_lt_of_le (Buffer.stock_take _ front) bound

def readUntil (stops : Char → Bool) (tally : Tally) :
    EStateM.Result Underflow Tally (List Char × Option Char) :=
  match step : read tally with
  | .error error behind => .error error behind
  | .ok none behind => .ok ([], none) behind
  | .ok (some glyph) behind =>
      if stops glyph then .ok ([], some glyph) behind
      else
        have := stock_lt_of_read step
        match readUntil stops behind with
        | .error error behind => .error error behind
        | .ok (others, stop) behind => .ok (glyph :: others, stop) behind
termination_by tally.buffer.stock

def readComment : Counting (Option (List Char)) := do
  match ← read with
  | some '#' =>
      let (body, lineBreak) ← readUntil breaksLine
      return some ('#' :: (body ++ lineBreak.toList))
  | _ => return none

def readRun (first others : Char → Bool) : Counting (Option (List Char)) := do
  match ← read with
  | some glyph =>
      if first glyph then
        match ← readUntil fun glyph => !others glyph with
        | (rest, none) => return some (glyph :: rest)
        | (rest, some stop) =>
            push [stop] false false
            return some (glyph :: rest)
      else return none
  | none => return none

def readToken : Kind → Counting (Option (List Char))
  | .symbol sign => readSpelling [sign.glyph]
  | .keyword word => readSpelling word.spelling.toList
  | .literal => readLiteral
  | .comment => readComment
  | .identifier => readRun isIdentifierStart isIdentifierPart
  | .integer => readRun Char.isDigit Char.isDigit

def extract (kind : Kind) : Counting (Option (List Char)) := do
  checkpoint
  match ← readToken kind with
  | none =>
      rewind
      return none
  | some text => return some text

def probe (kind : Kind) : Counting Bool := do
  let text ← extract kind
  rewind
  return text.isSome

def longestSpelling (best : Option (Kind × Nat)) :
    List (Kind × List Char) → Counting (Option Kind)
  | [] => return best.map Prod.fst
  | (kind, text) :: others => do
      if best.all fun found => found.2 < text.length then
        if ← probe kind then longestSpelling (some (kind, text.length)) others
        else longestSpelling best others
      else longestSpelling best others

def firstKind : List Kind → Counting (Option Kind)
  | [] => return none
  | kind :: others => do
      if ← probe kind then return some kind
      else firstKind others

def classify : Counting (Option Kind) := do
  match ← longestSpelling none Kind.fixed with
  | some kind => return some kind
  | none => firstKind Kind.varied

def respond : BufferRequest → Counting BufferAnswer
  | .read => return .glyph (← read)
  | .peek offset => return .glyph (← ask (·.peek offset))
  | .push text tracked fold => do
      push text tracked fold
      return .done
  | .checkpoint => do
      checkpoint
      return .done
  | .rewind => do
      rewind
      return .done
  | .count => return .number (← ask Buffer.count)
  | .isEmpty => return .truth (← ask Buffer.isEmpty)
  | .remaining => return .text (← ask Buffer.remaining)
  | .probe kind => return .truth (← probe kind)
  | .extract kind => return .token (← extract kind)
  | .classify => return .kind (← classify)

/-- Makes requests one after the other. -/
def perform : List BufferRequest → Counting Unit
  | [] => return ()
  | request :: others => do
      let _ ← respond request
      perform others

end Counting

/-! ## The balance -/

/-- The counters are right, and the last character is the one on top of the log, or in front of the
checkpoint, or the insertion that was read last. -/
structure Tally.Balanced (tally : Tally) : Prop extends tally.buffer.Sound where
  line : tally.buffer.line =
    tally.buffer.checkpointLine + tally.buffer.log.countP breaksLine +
      tally.insertions.countP breaksLine
  last : tally.buffer.last = tally.buffer.log.head?.or tally.buffer.checkpointLast ∨
    tally.insertions ≠ [] ∧ tally.buffer.last = tally.insertions.head?
  positive : 1 ≤ tally.buffer.checkpointLine

namespace Tally.Balanced

variable {tally : Tally}

theorem line_pos (balanced : tally.Balanced) : 1 ≤ tally.buffer.line := by
  have positive := balanced.positive
  rw [balanced.line]
  omega

/-- The balance does not depend on the unread characters, if these are counted. -/
theorem withUnread (balanced : tally.Balanced) {buffer : Buffer} (sound : buffer.Sound)
    (unread : List Unread) (stream : Option Stream)
    (changed : buffer = { tally.buffer with unread := unread, stream := stream }) :
    Tally.Balanced { tally with buffer := buffer } := by
  subst changed
  exact ⟨sound, balanced.line, balanced.last, balanced.positive⟩

theorem fill (balanced : tally.Balanced) (wanted : Nat) :
    Tally.Balanced { tally with buffer := tally.buffer.fill wanted } := by
  obtain ⟨_, _, filled, -⟩ := tally.buffer.fill_append wanted
  exact balanced.withUnread (balanced.toSound.fill wanted) _ _ filled

theorem remaining (balanced : tally.Balanced) :
    Tally.Balanced { tally with buffer := tally.buffer.remaining.2 } := by
  obtain ⟨_, drained, -⟩ := tally.buffer.remaining_spec
  exact balanced.withUnread balanced.toSound.remaining _ _ (congrArg Prod.snd drained)

theorem take (balanced : tally.Balanced) {next : Unread} {rest : List Unread}
    (front : tally.buffer.unread = next :: rest) :
    Tally.Balanced
      ⟨tally.buffer.take next rest,
        if next.inserted then next.glyph :: tally.insertions else tally.insertions⟩ := by
  have line := balanced.line
  refine ⟨balanced.toSound.take front, ?_, ?_, balanced.positive⟩
  · cases inserted : next.inserted <;> cases breaks : breaksLine next.glyph <;>
      simp [Buffer.take, inserted, breaks, line] <;> omega
  · cases inserted : next.inserted with
    | true => exact .inr ⟨List.cons_ne_nil _ _, rfl⟩
    | false => exact .inl (by simp [Buffer.take, inserted])

theorem pushGlyph (balanced : tally.Balanced) (tracked : Bool) (glyph : Char) :
    Tally.Balanced { tally with buffer := tally.buffer.pushGlyph tracked glyph } := by
  have sound := balanced.toSound.pushGlyph tracked glyph
  cases tracked with
  | true => exact ⟨sound, balanced.line, balanced.last, balanced.positive⟩
  | false =>
      cases logged : tally.buffer.log with
      | nil =>
          exact balanced.withUnread sound (.ordinary glyph :: tally.buffer.unread)
            tally.buffer.stream (by simp [Buffer.pushGlyph, logged])
      | cons latest log =>
          by_cases same : latest = glyph
          · -- The line break leaves the log and the line counter together.
            have line := balanced.line
            simp only [Buffer.pushGlyph, logged, same, Buffer.unconsume, Bool.false_eq_true,
              ↓reduceIte] at sound ⊢
            refine ⟨sound, ?_, .inl rfl, balanced.positive⟩
            cases breaks : breaksLine glyph <;> simp [logged, same, breaks] at line ⊢ <;> omega
          · exact balanced.withUnread sound (.ordinary glyph :: tally.buffer.unread)
              tally.buffer.stream (by simp [Buffer.pushGlyph, logged, same])

theorem checkpoint (balanced : tally.Balanced) : Tally.Balanced ⟨tally.buffer.checkpoint, []⟩ where
  toSound := balanced.toSound.checkpoint.sound
  line := rfl
  last := .inl rfl
  positive := balanced.line_pos

theorem rewind (balanced : tally.Balanced) : Tally.Balanced ⟨tally.buffer.rewind, []⟩ where
  toSound := balanced.toSound.rewind.sound
  line := rfl
  last := .inl rfl
  positive := balanced.positive

end Tally.Balanced

/-! ## Agreement -/

namespace Counting

variable {α β : Type}

/-- From a tally a step succeeds with a result and a buffer, and leaves a balanced tally. -/
def Succeeds (counting : Counting α) (tally : Tally) (outcome : α × Buffer) : Prop :=
  ∃ insertions, counting tally = .ok outcome.1 ⟨outcome.2, insertions⟩ ∧
    Tally.Balanced ⟨outcome.2, insertions⟩

/-- From every balanced tally a step succeeds and does to the buffer what another one does to it. -/
def Mirrors (counting : Counting α) (step : Buffer → α × Buffer) : Prop :=
  ∀ tally : Tally, tally.Balanced → Succeeds counting tally (step tally.buffer)

namespace Succeeds

variable {tally : Tally}

theorem pure (balanced : tally.Balanced) {value : α} :
    Succeeds (Pure.pure value) tally (value, tally.buffer) :=
  ⟨tally.insertions, rfl, balanced⟩

/-- What comes second begins with the result and the tally that the first one leaves. -/
theorem bind {first : Counting α} {step : Buffer → α × Buffer} {next : α → Counting β}
    {outcome : β × Buffer} (begins : Mirrors first step) (balanced : tally.Balanced)
    (continues : ∀ value behind, step tally.buffer = (value, behind) →
      ∀ insertions, Tally.Balanced ⟨behind, insertions⟩ →
        Succeeds (next value) ⟨behind, insertions⟩ outcome) :
    Succeeds (first >>= next) tally outcome := by
  obtain ⟨insertions, ran, middle⟩ := begins tally balanced
  obtain ⟨final, ranNext, behind⟩ := continues _ _ rfl insertions middle
  refine ⟨final, ?_, behind⟩
  show EStateM.bind first next tally = _
  rw [EStateM.bind, ran]
  exact ranNext

/-- What comes second begins with the buffer that the first one makes. -/
theorem bind_change {first : Counting Unit} {change : Buffer → Buffer} {next : Unit → Counting β}
    {outcome : β × Buffer} (begins : Mirrors first fun buffer => ((), change buffer))
    (balanced : tally.Balanced)
    (continues : ∀ insertions, Tally.Balanced ⟨change tally.buffer, insertions⟩ →
      Succeeds (next ()) ⟨change tally.buffer, insertions⟩ outcome) :
    Succeeds (first >>= next) tally outcome := by
  refine bind begins balanced ?_
  intro _ changed step insertions middle
  obtain ⟨-, rfl⟩ := Prod.mk.inj step
  exact continues insertions middle

/-- Handing a result on changes nothing else. -/
theorem map {first : Counting α} {step : Buffer → α × Buffer} (wrap : α → β)
    (begins : Mirrors first step) (balanced : tally.Balanced) :
    Succeeds (do return wrap (← first)) tally
      (wrap (step tally.buffer).1, (step tally.buffer).2) := by
  refine bind begins balanced ?_
  intro value behind ran insertions middle
  rw [ran]
  exact pure middle

end Succeeds

/-! ## Agreement of what moves characters -/

theorem mirrors_ask {step : Buffer → α × Buffer}
    (stays : ∀ tally : Tally, tally.Balanced →
      Tally.Balanced { tally with buffer := (step tally.buffer).2 }) : Mirrors (ask step) step :=
  fun tally balanced => ⟨tally.insertions, rfl, stays tally balanced⟩

theorem mirrors_checkpoint : Mirrors checkpoint fun buffer => ((), buffer.checkpoint) :=
  fun _ balanced => ⟨[], rfl, balanced.checkpoint⟩

theorem mirrors_rewind : Mirrors rewind fun buffer => ((), buffer.rewind) :=
  fun _ balanced => ⟨[], rfl, balanced.rewind⟩

/-- An unread character of an insertion is counted. -/
theorem mirrors_read : Mirrors read Buffer.read := by
  intro tally balanced
  have filled := balanced.fill 1
  unfold Succeeds read Buffer.read
  cases front : (tally.buffer.fill 1).unread with
  | nil =>
      simp only [front]
      exact ⟨tally.insertions, rfl, filled⟩
  | cons next rest =>
      have enough : ¬ (next.inserted = true ∧ (tally.buffer.fill 1).insertedCount = 0) := by
        intro ⟨inserted, zero⟩
        have counted := filled.counted
        simp [front, inserted, zero] at counted
      simp only [front, enough, ↓reduceIte]
      exact ⟨_, rfl, filled.take front⟩

/-- No line break is on top of the log while the line is zero, since it never is. -/
theorem mirrors_pushGlyph (tracked : Bool) (glyph : Char) :
    Mirrors (pushGlyph tracked glyph) fun buffer => ((), buffer.pushGlyph tracked glyph) := by
  intro tally balanced
  have positive := balanced.line_pos
  have enough : ¬ (tracked = false ∧ tally.buffer.log.head? = some glyph ∧
      breaksLine glyph = true ∧ tally.buffer.line = 0) := by
    intro ⟨_, _, _, zero⟩
    omega
  unfold Succeeds pushGlyph
  simp only [enough, ↓reduceIte]
  exact ⟨tally.insertions, rfl, balanced.pushGlyph tracked glyph⟩

theorem mirrors_pushAll (tracked : Bool) (text : List Char) :
    Mirrors (pushAll tracked text) fun buffer =>
      ((), text.foldr (fun glyph buffer => buffer.pushGlyph tracked glyph) buffer) := by
  induction text with
  | nil => exact fun tally balanced => .pure balanced
  | cons glyph others inductionHypothesis =>
      intro tally balanced
      refine .bind_change inductionHypothesis balanced ?_
      intro insertions middle
      exact mirrors_pushGlyph tracked glyph _ middle

theorem mirrors_push (text : List Char) (tracked fold : Bool) :
    Mirrors (push text tracked fold) fun buffer => ((), buffer.push text tracked fold) := by
  intro tally balanced
  refine .bind_change (mirrors_pushAll tracked text) balanced ?_
  intro insertions middle
  cases fold with
  | true => exact mirrors_rewind _ middle
  | false => exact .pure middle

/-! ## Agreement of the matchers -/

theorem mirrors_readText (text : List Char) : Mirrors (readText text) (Buffer.readText text) := by
  induction text with
  | nil => exact fun tally balanced => .pure balanced
  | cons expected others inductionHypothesis =>
      intro tally balanced
      refine .bind mirrors_read balanced ?_
      intro found behind step insertions middle
      rw [Buffer.readText, step]
      cases found with
      | none => exact .pure middle
      | some glyph =>
          by_cases same : glyph = expected
          · simp only [same, ↓reduceIte]
            exact inductionHypothesis _ middle
          · simp only [same, ↓reduceIte]
            exact .pure middle

theorem mirrors_readSpelling (text : List Char) :
    Mirrors (readSpelling text) (Buffer.readSpelling text) := by
  intro tally balanced
  refine .bind (mirrors_readText text) balanced ?_
  intro whole behind step insertions middle
  rw [Buffer.readSpelling, step]
  cases whole with
  | false => exact .pure middle
  | true =>
      simp only [↓reduceIte]
      split
      · refine .bind (mirrors_ask fun tally balanced => balanced.fill (0 + 1)) middle ?_
        intro found ahead step insertions middle
        rw [show behind.peek 0 = (found, ahead) from step]
        cases found with
        | none => exact .pure middle
        | some glyph => exact .pure middle
      · exact .pure middle

theorem mirrors_readLiteral : Mirrors readLiteral Buffer.readLiteral := by
  intro tally balanced
  refine .bind mirrors_read balanced ?_
  intro opening first step insertions balancedFirst
  rw [Buffer.readLiteral, step]
  split
  next =>
    refine .bind mirrors_read balancedFirst ?_
    intro glyph second step insertions balancedSecond
    simp only [step]
    cases glyph with
    | none => exact .pure balancedSecond
    | some glyph =>
        refine .bind mirrors_read balancedSecond ?_
        intro closing third step insertions balancedThird
        simp only [step]
        split
        next => exact .pure balancedThird
        next other =>
          split
          next same => exact absurd (congrArg Prod.fst same) other
          next same =>
            obtain ⟨-, rfl⟩ := Prod.mk.inj same
            exact .pure balancedThird
  next other =>
    split
    next same => exact absurd (congrArg Prod.fst same) other
    next same =>
      obtain ⟨-, rfl⟩ := Prod.mk.inj same
      exact .pure balancedFirst

theorem readUntil_of_none {stops : Char → Bool} {tally behind : Tally}
    (step : read tally = .ok none behind) : readUntil stops tally = .ok ([], none) behind := by
  rw [readUntil]
  split <;> simp_all

theorem readUntil_of_some {stops : Char → Bool} {tally behind : Tally} {glyph : Char}
    (step : read tally = .ok (some glyph) behind) :
    readUntil stops tally =
      if stops glyph then .ok ([], some glyph) behind
      else
        match readUntil stops behind with
        | .error error behind => .error error behind
        | .ok (others, stop) behind => .ok (glyph :: others, stop) behind := by
  rw [readUntil]
  split
  next same => simp [step] at same
  next same => simp [step] at same
  next found rest same =>
    obtain ⟨first, rfl⟩ := EStateM.Result.ok.inj (step.symm.trans same)
    obtain rfl := Option.some.inj first
    rfl

theorem mirrors_readUntil (stops : Char → Bool) : Mirrors (readUntil stops) fun buffer =>
    (((buffer.readUntil stops).1, (buffer.readUntil stops).2.1),
      (buffer.readUntil stops).2.2) := by
  intro tally balanced
  obtain ⟨insertions, ran, middle⟩ := mirrors_read tally balanced
  unfold Succeeds
  dsimp only
  cases step : tally.buffer.read with
  | mk found behind =>
      rw [step] at ran middle
      cases found with
      | none =>
          rw [Buffer.readUntil_of_none step]
          exact ⟨insertions, readUntil_of_none ran, middle⟩
      | some glyph =>
          rw [Buffer.readUntil_of_some step, readUntil_of_some ran]
          by_cases stopped : stops glyph = true
          · simp only [stopped, ↓reduceIte]
            exact ⟨insertions, rfl, middle⟩
          · have shorter := stock_lt_of_read ran
            obtain ⟨final, rest, balancedRest⟩ := mirrors_readUntil stops _ middle
            dsimp only at rest balancedRest ⊢
            simp only [stopped, Bool.false_eq_true, ↓reduceIte, rest]
            exact ⟨final, rfl, balancedRest⟩
termination_by tally => tally.buffer.stock

theorem mirrors_readComment : Mirrors readComment Buffer.readComment := by
  intro tally balanced
  refine .bind mirrors_read balanced ?_
  intro opening first step insertions balancedFirst
  rw [Buffer.readComment, step]
  split
  next =>
    refine .bind (mirrors_readUntil breaksLine) balancedFirst ?_
    intro found behind step insertions balancedBehind
    obtain ⟨rfl, rfl⟩ := Prod.mk.inj step
    exact .pure balancedBehind
  next other =>
    split
    next same => exact absurd (congrArg Prod.fst same) other
    next same =>
      obtain ⟨-, rfl⟩ := Prod.mk.inj same
      exact .pure balancedFirst

theorem mirrors_readRun (first others : Char → Bool) :
    Mirrors (readRun first others) (Buffer.readRun first others) := by
  intro tally balanced
  refine .bind mirrors_read balanced ?_
  intro found behind step insertions middle
  rw [Buffer.readRun, step]
  cases found with
  | none => exact .pure middle
  | some glyph =>
      by_cases begins : first glyph = true
      · simp only [begins, ↓reduceIte]
        refine .bind (mirrors_readUntil fun glyph => !others glyph) middle ?_
        intro run ahead step insertions balancedAhead
        obtain ⟨rfl, rfl⟩ := Prod.mk.inj step
        dsimp only at balancedAhead ⊢
        generalize Buffer.readUntil (fun glyph => !others glyph) behind = scanned at balancedAhead ⊢
        rcases scanned with ⟨rest, _ | stop, last⟩
        · exact .pure balancedAhead
        · refine .bind_change (mirrors_push [stop] false false) balancedAhead ?_
          exact fun insertions balancedFinal => .pure balancedFinal
      · simp only [begins]
        exact .pure middle

theorem mirrors_readToken (kind : Kind) : Mirrors (readToken kind) (Buffer.readToken kind) := by
  cases kind with
  | symbol sign => exact mirrors_readSpelling _
  | keyword word => exact mirrors_readSpelling _
  | literal => exact mirrors_readLiteral
  | comment => exact mirrors_readComment
  | identifier => exact mirrors_readRun _ _
  | integer => exact mirrors_readRun _ _

theorem mirrors_extract (kind : Kind) : Mirrors (extract kind) (Buffer.extract kind) := by
  intro tally balanced
  refine .bind_change mirrors_checkpoint balanced ?_
  intro insertions balancedStart
  refine .bind (mirrors_readToken kind) balancedStart ?_
  intro text behind step insertions middle
  rw [Buffer.extract, show tally.buffer.checkpoint.readToken kind = (text, behind) from step]
  cases text with
  | some text => exact .pure middle
  | none =>
      refine .bind_change mirrors_rewind middle ?_
      exact fun insertions balancedFinal => .pure balancedFinal

theorem mirrors_probe (kind : Kind) : Mirrors (probe kind) (Buffer.probe kind) := by
  intro tally balanced
  refine .bind (mirrors_extract kind) balanced ?_
  intro text behind step insertions middle
  rw [Buffer.probe, step]
  refine .bind_change mirrors_rewind middle ?_
  exact fun insertions balancedFinal => .pure balancedFinal

theorem mirrors_longestSpelling (best : Option (Kind × Nat))
    (candidates : List (Kind × List Char)) :
    Mirrors (longestSpelling best candidates) (Buffer.longestSpelling best candidates) := by
  induction candidates generalizing best with
  | nil => exact fun tally balanced => .pure balanced
  | cons candidate others inductionHypothesis =>
      intro tally balanced
      unfold longestSpelling Buffer.longestSpelling
      split
      · refine .bind (mirrors_probe candidate.1) balanced ?_
        intro found behind step insertions middle
        rw [step]
        cases found with
        | true => exact inductionHypothesis _ _ middle
        | false => exact inductionHypothesis _ _ middle
      · exact inductionHypothesis best _ balanced

theorem mirrors_firstKind (kinds : List Kind) :
    Mirrors (firstKind kinds) (Buffer.firstKind kinds) := by
  induction kinds with
  | nil => exact fun tally balanced => .pure balanced
  | cons kind others inductionHypothesis =>
      intro tally balanced
      refine .bind (mirrors_probe kind) balanced ?_
      intro found behind step insertions middle
      rw [Buffer.firstKind, step]
      cases found with
      | true => exact .pure middle
      | false => exact inductionHypothesis _ middle

theorem mirrors_classify : Mirrors classify Buffer.classify := by
  intro tally balanced
  refine .bind (mirrors_longestSpelling none Kind.fixed) balanced ?_
  intro found behind step insertions middle
  rw [Buffer.classify, step]
  cases found with
  | some kind => exact .pure middle
  | none => exact mirrors_firstKind Kind.varied _ middle

/-! ## Agreement of the requests -/

theorem mirrors_respond (request : BufferRequest) :
    Mirrors (respond request) fun buffer => buffer.respond request := by
  intro tally balanced
  cases request with
  | read => exact .map BufferAnswer.glyph mirrors_read balanced
  | peek offset =>
      exact .map BufferAnswer.glyph (mirrors_ask fun _ balanced => balanced.fill (offset + 1))
        balanced
  | push text tracked fold =>
      exact .map (fun _ => BufferAnswer.done) (mirrors_push text tracked fold) balanced
  | checkpoint => exact .map (fun _ => BufferAnswer.done) mirrors_checkpoint balanced
  | rewind => exact .map (fun _ => BufferAnswer.done) mirrors_rewind balanced
  | count =>
      exact .map BufferAnswer.number (mirrors_ask fun _ balanced => balanced.fill 0) balanced
  | isEmpty =>
      exact .map BufferAnswer.truth (mirrors_ask fun _ balanced => balanced.fill 0) balanced
  | remaining =>
      exact .map BufferAnswer.text (mirrors_ask fun _ balanced => balanced.remaining) balanced
  | probe kind => exact .map BufferAnswer.truth (mirrors_probe kind) balanced
  | extract kind => exact .map BufferAnswer.token (mirrors_extract kind) balanced
  | classify => exact .map BufferAnswer.kind mirrors_classify balanced

theorem mirrors_perform (requests : List BufferRequest) :
    Mirrors (perform requests) fun buffer => ((), buffer.after requests) := by
  induction requests with
  | nil => exact fun tally balanced => .pure balanced
  | cons request others inductionHypothesis =>
      intro tally balanced
      refine .bind (mirrors_respond request) balanced ?_
      intro answer behind step insertions middle
      have same : tally.buffer.after (request :: others) = behind.after others :=
        congrArg (fun responded => responded.2.after others) step
      show Succeeds _ _ ((), tally.buffer.after (request :: others))
      rw [same]
      exact inductionHypothesis _ middle

end Counting

namespace Buffer

theorem Fresh.balanced {buffer : Buffer} (fresh : buffer.Fresh) :
    Tally.Balanced ⟨buffer, []⟩ := by
  have sound := fresh.plain.sound
  cases fresh with
  | ofText text => exact ⟨sound, rfl, .inl rfl, Nat.le_refl 1⟩
  | ofStream name feed chunk threshold => exact ⟨sound, rfl, .inl rfl, Nat.le_refl 1⟩

/-- In whatever way a buffer is used, no counter goes below zero: with counters that fail there,
everything is the same. The counter of insertions is the number of their unread characters; the line
is that of the checkpoint, with one more for each line break in the log and in the insertions that
were read since; and the line-start flag is that of the last character, which is the one on top of
the log, or in front of the checkpoint, or the insertion that was read last. -/
theorem counters_balance {start : Buffer} (fresh : start.Fresh) (history : List BufferRequest) :
    let buffer := start.after history
    ∃ insertions,
      Counting.perform history ⟨start, []⟩ = .ok () ⟨buffer, insertions⟩ ∧
        buffer.insertedCount = buffer.unread.countP Unread.inserted ∧
        buffer.line =
          buffer.checkpointLine + buffer.log.countP breaksLine + insertions.countP breaksLine ∧
        buffer.atLineStart = startsLineAfter buffer.last ∧
        (buffer.last = buffer.log.head?.or buffer.checkpointLast ∨
          insertions ≠ [] ∧ buffer.last = insertions.head?) ∧
        1 ≤ buffer.line := by
  intro buffer
  obtain ⟨insertions, performed, balanced⟩ := Counting.mirrors_perform history _ fresh.balanced
  exact ⟨insertions, performed, balanced.counted, balanced.line, balanced.lineStart, balanced.last,
    balanced.line_pos⟩

def twoRows : Buffer :=
  .ofText ['a', '\n', 'b']

/-- An insertion with a line break is read, of the text that is put back then only the last character
is in the log, and another insertion stays unread. -/
def scribbling : List BufferRequest :=
  [.read, .read, .push ['~', '\n'] true false, .read, .read, .push ['y', 'z', '\n'] false false,
    .push ['!', '?'] true false, .read]

theorem counters_balance_scribbling :
    twoRows.Fresh ∧
      let buffer := twoRows.after scribbling
      buffer.log = ['a'] ∧ buffer.line = 2 ∧ buffer.insertedCount = 1 ∧
        ∃ insertions, Counting.perform scribbling ⟨twoRows, []⟩ = .ok () ⟨buffer, insertions⟩ ∧
          insertions.countP breaksLine = 1 := by
  have fresh : twoRows.Fresh := .ofText _
  obtain ⟨insertions, performed, -, line, -⟩ := counters_balance fresh scribbling
  have values : (twoRows.after scribbling).line = 2 ∧
      (twoRows.after scribbling).checkpointLine = 1 ∧
      (twoRows.after scribbling).log = ['a'] ∧ (twoRows.after scribbling).insertedCount = 1 := by
    decide +kernel
  obtain ⟨found, begun, log, counted⟩ := values
  refine ⟨fresh, log, found, counted, insertions, performed, ?_⟩
  rw [found, begun, log, show ['a'].countP breaksLine = 0 from rfl] at line
  omega

end Buffer

end TapeMachine
