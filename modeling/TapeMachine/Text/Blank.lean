import TapeMachine.Text.Ranges

/-!
Contract: the characters with the Unicode property `White_Space`, and the words that they separate.

Owns: the table of the 25 blank code points and the splitting of a text into words.

Does not own: what a line is; `Text.Lines` does.
-/

namespace TapeMachine.Text

/-- First and last code point of each run of characters with the property `White_Space`. -/
def blankRanges : List (Nat × Nat) :=
  [(0x09, 0x0D), (0x20, 0x20), (0x85, 0x85), (0xA0, 0xA0), (0x1680, 0x1680), (0x2000, 0x200A),
    (0x2028, 0x2029), (0x202F, 0x202F), (0x205F, 0x205F), (0x3000, 0x3000)]

def isBlank (glyph : Char) : Bool :=
  inRanges blankRanges glyph.toNat

/-- Twenty-five characters are blank. -/
example : (blankRanges.map fun range => range.2 + 1 - range.1).sum = 25 := rfl

/-- The maximal runs of characters that are not blank, in order. -/
def words : List Char → List (List Char)
  | [] => []
  | glyph :: rest =>
      if isBlank glyph then words rest
      else
        match rest with
        | [] => [[glyph]]
        | next :: _ =>
            if isBlank next then [glyph] :: words rest
            else
              match words rest with
              | [] => [[glyph]]
              | word :: others => (glyph :: word) :: others

/-- The words of a text with one space between neighbours. -/
def squeeze (text : List Char) : List Char :=
  [' '].intercalate (words text)

end TapeMachine.Text
