import TapeMachine.Source.Buffer
import TapeMachine.Text.Blank
import TapeMachine.Token.Kind

/-!
Contract: recognising a token at the front of a buffer.

Owns: for each kind the reading of one token, the probe that leaves the unread text as it was, the
choice of the kind that stands in front, and the skipping of blanks and comments.

Among the kinds with a fixed spelling the longest wins, the earlier one if two are equally long; a
spelling made of word characters needs a word boundary behind it. If none matches, the first
matching kind among the others wins. Probing sets checkpoints of its own.
-/

namespace TapeMachine

def isIdentifierStart (glyph : Char) : Bool :=
  glyph = '_' || glyph.isAlpha

def isIdentifierPart (glyph : Char) : Bool :=
  glyph = '_' || glyph.isAlphanum

namespace Buffer

/-- Reads a given text; stops behind the first character that differs. -/
def readText : List Char → Buffer → Bool × Buffer
  | [], buffer => (true, buffer)
  | expected :: others, buffer =>
      match buffer.read with
      | (some glyph, buffer) => if glyph = expected then readText others buffer else (false, buffer)
      | (none, buffer) => (false, buffer)

/-- Reads a spelling, with a word boundary behind it if it is made of word characters. -/
def readSpelling (text : List Char) (buffer : Buffer) : Option (List Char) × Buffer :=
  match buffer.readText text with
  | (false, buffer) => (none, buffer)
  | (true, buffer) =>
      if text.all isIdentifierPart then
        match buffer.peek 0 with
        | (some glyph, buffer) => (if isIdentifierPart glyph then none else some text, buffer)
        | (none, buffer) => (some text, buffer)
      else (some text, buffer)

/-- Reads a quote, any one character, and a quote. -/
def readLiteral (buffer : Buffer) : Option (List Char) × Buffer :=
  match buffer.read with
  | (some '\'', buffer) =>
      match buffer.read with
      | (some glyph, buffer) =>
          match buffer.read with
          | (some '\'', buffer) => (some ['\'', glyph, '\''], buffer)
          | (_, buffer) => (none, buffer)
      | (none, buffer) => (none, buffer)
  | (_, buffer) => (none, buffer)

/-- Reads a hash sign and everything up to the end of the line, the line break included. -/
def readComment (buffer : Buffer) : Option (List Char) × Buffer :=
  match buffer.read with
  | (some '#', buffer) =>
      let (body, lineBreak, buffer) := buffer.readUntil breaksLine
      (some ('#' :: (body ++ lineBreak.toList)), buffer)
  | (_, buffer) => (none, buffer)

/-- Reads one character of a first class and all following ones of a second. The character that
ends the run is read as well and put back. -/
def readRun (first others : Char → Bool) (buffer : Buffer) : Option (List Char) × Buffer :=
  match buffer.read with
  | (some glyph, buffer) =>
      if first glyph then
        match buffer.readUntil fun glyph => !others glyph with
        | (rest, none, buffer) => (some (glyph :: rest), buffer)
        | (rest, some stop, buffer) => (some (glyph :: rest), buffer.push [stop] false false)
      else (none, buffer)
  | (none, buffer) => (none, buffer)

/-- Reads a token of a kind, and more than that when there is none. -/
def readToken (kind : Kind) (buffer : Buffer) : Option (List Char) × Buffer :=
  match kind with
  | .symbol sign => buffer.readSpelling [sign.glyph]
  | .keyword word => buffer.readSpelling word.spelling.toList
  | .literal => buffer.readLiteral
  | .comment => buffer.readComment
  | .identifier => buffer.readRun isIdentifierStart isIdentifierPart
  | .integer => buffer.readRun Char.isDigit Char.isDigit

/-- Reads a token of a kind from a checkpoint on; goes back there when there is none. -/
def extract (kind : Kind) (buffer : Buffer) : Option (List Char) × Buffer :=
  match buffer.checkpoint.readToken kind with
  | (none, buffer) => (none, buffer.rewind)
  | (some text, buffer) => (some text, buffer)

/-- Whether a token of a kind stands in front; the unread text stays. -/
def probe (kind : Kind) (buffer : Buffer) : Bool × Buffer :=
  let (text, buffer) := buffer.extract kind
  (text.isSome, buffer.rewind)

/-- The longest spelling in front among some candidates and the best one so far, which a candidate
beats only by being longer. -/
def longestSpelling (best : Option (Kind × Nat)) :
    List (Kind × List Char) → Buffer → Option Kind × Buffer
  | [], buffer => (best.map Prod.fst, buffer)
  | (kind, text) :: others, buffer =>
      if best.all fun found => found.2 < text.length then
        match buffer.probe kind with
        | (true, buffer) => longestSpelling (some (kind, text.length)) others buffer
        | (false, buffer) => longestSpelling best others buffer
      else longestSpelling best others buffer

def firstKind : List Kind → Buffer → Option Kind × Buffer
  | [], buffer => (none, buffer)
  | kind :: others, buffer =>
      match buffer.probe kind with
      | (true, buffer) => (some kind, buffer)
      | (false, buffer) => firstKind others buffer

/-- The kind of the token in front; the unread text stays. -/
def classify (buffer : Buffer) : Option Kind × Buffer :=
  match longestSpelling none Kind.fixed buffer with
  | (some kind, buffer) => (some kind, buffer)
  | (none, buffer) => firstKind Kind.varied buffer

/-! ## Scanning adds no characters -/

theorem reserve_readText (text : List Char) (buffer : Buffer) :
    (buffer.readText text).2.reserve ≤ buffer.reserve := by
  induction text generalizing buffer with
  | nil => exact Nat.le_refl _
  | cons expected others inductionHypothesis =>
      have bound := reserve_read buffer
      unfold readText
      split
      · rename_i glyph rest step
        rw [step] at bound
        split
        · exact Nat.le_trans (inductionHypothesis rest) bound
        · exact bound
      · rename_i rest step
        rwa [step] at bound

theorem reserve_readSpelling (text : List Char) (buffer : Buffer) :
    (buffer.readSpelling text).2.reserve ≤ buffer.reserve := by
  have bound := reserve_readText text buffer
  unfold readSpelling
  split
  · rename_i rest step
    rwa [step] at bound
  · rename_i rest step
    rw [step] at bound
    have peeked : (rest.peek 0).2.reserve ≤ rest.reserve := reserve_fill rest (0 + 1)
    split
    · split <;> rename_i ahead <;> rw [ahead] at peeked <;> exact Nat.le_trans peeked bound
    · exact bound

theorem reserve_readLiteral (buffer : Buffer) :
    buffer.readLiteral.2.reserve ≤ buffer.reserve := by
  have opening := reserve_read buffer
  unfold readLiteral
  split
  · rename_i first step
    rw [step] at opening
    have glyph := reserve_read first
    split
    · rename_i _ second step
      rw [step] at glyph
      have closing := reserve_read second
      split <;> rename_i step <;> rw [step] at closing <;>
        exact Nat.le_trans closing (Nat.le_trans glyph opening)
    · rename_i second step
      rw [step] at glyph
      exact Nat.le_trans glyph opening
  · rename_i first _ step
    rwa [step] at opening

theorem reserve_readComment (buffer : Buffer) :
    buffer.readComment.2.reserve ≤ buffer.reserve := by
  have bound := reserve_read buffer
  unfold readComment
  split
  · rename_i rest step
    rw [step] at bound
    exact Nat.le_trans (reserve_readUntil breaksLine rest).1 bound
  · rename_i rest _ step
    rwa [step] at bound

theorem reserve_readRun (first others : Char → Bool) (buffer : Buffer) :
    (buffer.readRun first others).2.reserve ≤ buffer.reserve := by
  have bound := reserve_read buffer
  unfold readRun
  split
  · rename_i glyph next step
    rw [step] at bound
    obtain ⟨rest, back⟩ := reserve_readUntil (fun glyph => !others glyph) next
    split
    · split <;> rename_i read <;> rw [read] at rest back
      · exact Nat.le_trans rest bound
      · exact Nat.le_trans (back _ rfl) bound
    · exact bound
  · rename_i next step
    rwa [step] at bound

theorem reserve_readToken (kind : Kind) (buffer : Buffer) :
    (buffer.readToken kind).2.reserve ≤ buffer.reserve := by
  cases kind with
  | symbol sign => exact reserve_readSpelling _ buffer
  | keyword word => exact reserve_readSpelling _ buffer
  | literal => exact reserve_readLiteral buffer
  | comment => exact reserve_readComment buffer
  | identifier => exact reserve_readRun _ _ buffer
  | integer => exact reserve_readRun _ _ buffer

/-- Not even going back behind an extraction leads to more characters than there were. -/
theorem reserve_extract (kind : Kind) (buffer : Buffer) :
    (buffer.extract kind).2.reserve ≤ buffer.stock := by
  have bound := reserve_readToken kind buffer.checkpoint
  rw [reserve_checkpoint] at bound
  unfold extract
  split <;> rename_i step <;> rw [step] at bound
  · exact Nat.le_trans (reserve_rewind _) bound
  · exact bound

theorem stock_probe (kind : Kind) (buffer : Buffer) : (buffer.probe kind).2.stock ≤ buffer.stock :=
  Nat.le_trans (stock_rewind _) (reserve_extract kind buffer)

theorem stock_longestSpelling (candidates : List (Kind × List Char)) (best : Option (Kind × Nat))
    (buffer : Buffer) : (longestSpelling best candidates buffer).2.stock ≤ buffer.stock := by
  induction candidates generalizing best buffer with
  | nil => exact Nat.le_refl _
  | cons candidate others inductionHypothesis =>
      have probed := stock_probe candidate.1 buffer
      unfold longestSpelling
      split
      · split <;> rename_i step <;> rw [step] at probed <;>
          exact Nat.le_trans (inductionHypothesis _ _) probed
      · exact inductionHypothesis best buffer

theorem stock_firstKind (kinds : List Kind) (buffer : Buffer) :
    (firstKind kinds buffer).2.stock ≤ buffer.stock := by
  induction kinds generalizing buffer with
  | nil => exact Nat.le_refl _
  | cons kind others inductionHypothesis =>
      have probed := stock_probe kind buffer
      unfold firstKind
      split <;> rename_i step <;> rw [step] at probed
      · exact probed
      · exact Nat.le_trans (inductionHypothesis _) probed

theorem stock_classify (buffer : Buffer) : buffer.classify.2.stock ≤ buffer.stock := by
  have longest := stock_longestSpelling Kind.fixed none buffer
  unfold classify
  split <;> rename_i step <;> rw [step] at longest
  · exact longest
  · exact Nat.le_trans (stock_firstKind Kind.varied _) longest

theorem stock_extract_comment_lt {buffer rest : Buffer} {text : List Char}
    (step : buffer.extract .comment = (some text, rest)) : rest.stock < buffer.stock := by
  have marked := stock_checkpoint buffer
  simp only [extract, readToken, readComment] at step
  split at step
  · simp at step
  · rename_i comment read
    obtain ⟨-, rfl⟩ := Prod.mk.inj step
    split at read
    · rename_i body opening
      have spent := @stock_read_lt buffer.checkpoint '#' (by rw [opening])
      have others := stock_readUntil breaksLine body
      rw [opening, marked] at spent
      obtain ⟨-, rfl⟩ := Prod.mk.inj read
      exact Nat.lt_of_le_of_lt others spent
    · simp at read

/-! ## Blanks and comments -/

/-- Goes behind the blanks and comments in front. -/
def skipTrivia (buffer : Buffer) : Buffer :=
  match chosen : (buffer.readWhile Text.isBlank).2.classify with
  | (some .comment, ahead) =>
      match comment : ahead.extract .comment with
      | (some _, rest) =>
          have : rest.stock < buffer.stock := by
            have blanks := stock_readWhile Text.isBlank buffer
            have probed := stock_classify (buffer.readWhile Text.isBlank).2
            have spent := stock_extract_comment_lt comment
            rw [chosen] at probed
            exact Nat.lt_of_lt_of_le spent (Nat.le_trans probed blanks)
          skipTrivia rest
      -- What has been chosen can be extracted.
      | (none, rest) => rest
  | (_, ahead) => ahead
termination_by buffer.stock

end Buffer

end TapeMachine
