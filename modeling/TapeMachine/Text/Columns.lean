import TapeMachine.Text.Ranges

/-!
Contract: how many columns of a screen a text takes.

Owns: the characters that take no column, and those that are drawn as one.

A character takes one column, a control character too. A line feed takes none, and neither does a
carriage return before it. Some letters share a column with the one behind them: a lam with an
alef, and a tone letter of the first group with one of the second. Two letters with a consonant
joiner between them share one as well, together with the joiner.
-/

namespace TapeMachine.Text

def lamRanges : List (Nat × Nat) :=
  [(0x644, 0x644), (0x6B5, 0x6B8), (0x76A, 0x76A), (0x8A6, 0x8A6), (0x8C7, 0x8C7)]

def alefRanges : List (Nat × Nat) :=
  [(0x622, 0x623), (0x625, 0x625), (0x627, 0x627), (0x671, 0x673), (0x675, 0x675), (0x773, 0x774),
    (0x870, 0x882)]

/-- Tone letters that another one may follow. -/
def firstToneRanges : List (Nat × Nat) :=
  [(0xA4F8, 0xA4FB)]

/-- Tone letters that may follow another one. -/
def secondToneRanges : List (Nat × Nat) :=
  [(0xA4FC, 0xA4FD)]

/-- Letters that a consonant joiner ties together. -/
def tiedRanges : List (Nat × Nat) :=
  [(0x2D31, 0x2D65), (0x2D6F, 0x2D6F)]

def consonantJoiner : Nat := 0x2D7F

/-- What the beginning of a text is for a character before it. -/
inductive Beginning where
  | lineFeed
  | alef
  | secondTone
  /-- A letter that a consonant joiner may tie to one before it. -/
  | tied
  /-- A consonant joiner with such a letter behind it. -/
  | joiner
  | other
deriving DecidableEq, Repr

def Beginning.of (code : Nat) : Beginning :=
  if inRanges alefRanges code then .alef
  else if inRanges secondToneRanges code then .secondTone
  else if inRanges tiedRanges code then .tied
  else .other

/-- The columns of a text, and what it begins with. -/
def extent : List Char → Nat × Beginning
  | [] => (0, .other)
  | glyph :: rest =>
      let (count, next) := extent rest
      let code := glyph.toNat
      if glyph = '\n' then (count, .lineFeed)
      else if glyph = '\r' ∧ next = .lineFeed then (count, .other)
      else if inRanges lamRanges code ∧ next = .alef then (count, .other)
      else if inRanges firstToneRanges code ∧ next = .secondTone then (count, .other)
      else if code = consonantJoiner ∧ next = .tied then (count + 1, .joiner)
      else if inRanges tiedRanges code ∧ next = .joiner then (count - 1, .other)
      else (count + 1, .of code)

def columns (text : List Char) : Nat :=
  (extent text).1

end TapeMachine.Text
