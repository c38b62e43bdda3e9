/-!
Contract: decimal text of numbers, as lists of characters.

Owns: the digits of a natural number without leading zeros, their reading back, the text of an
integer with and without a sign that is always shown, and padding to a width.

Does not own: which numbers a format admits; ranges are checked where a number is read.
-/

namespace TapeMachine.Text

def digit (value : Nat) : Char :=
  Char.ofNat (48 + value)

def digitValue (glyph : Char) : Nat :=
  glyph.toNat - 48

/-- Decimal digits, most significant first, without leading zeros; zero is `0`. -/
def decimal (value : Nat) : List Char :=
  if value < 10 then [digit value] else decimal (value / 10) ++ [digit (value % 10)]

/-- The number spelled by a row of digits. Leading zeros are allowed. -/
def decimalValue (digits : List Char) : Nat :=
  digits.foldl (fun value glyph => 10 * value + digitValue glyph) 0

/-- Reads a non-empty row of ASCII digits and nothing else. -/
def decimal? (text : List Char) : Option Nat :=
  if text ≠ [] ∧ text.all Char.isDigit then some (decimalValue text) else none

/-- Decimal text of an integer; only negative numbers show a sign. -/
def integer : Int → List Char
  | .ofNat value => decimal value
  | .negSucc value => '-' :: decimal (value + 1)

/-- Decimal text of an integer whose sign is always shown, `+0` included. -/
def signed : Int → List Char
  | .ofNat value => '+' :: decimal value
  | .negSucc value => '-' :: decimal (value + 1)

/-- Reads an optional sign and a non-empty row of digits. -/
def integer? : List Char → Option Int
  | '-' :: digits => (decimal? digits).map fun value => -(value : Int)
  | '+' :: digits => (decimal? digits).map fun value => (value : Int)
  | digits => (decimal? digits).map fun value => (value : Int)

/-- Fills up on the left to a width; a longer text is kept whole. -/
def padLeft (width : Nat) (filler : Char) (text : List Char) : List Char :=
  List.replicate (width - text.length) filler ++ text

/-- Fills up on the right to a width; a longer text is kept whole. -/
def padRight (width : Nat) (filler : Char) (text : List Char) : List Char :=
  text ++ List.replicate (width - text.length) filler

end TapeMachine.Text
