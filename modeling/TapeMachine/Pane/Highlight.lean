import TapeMachine.Screen.Style
import TapeMachine.Text.Alphanumeric
import TapeMachine.Token.Kind

/-!
Contract: the colouring of one line of source text.

Owns: the division of a line into words, quoted characters, a comment and single other characters,
and the style of each.

The division looks at the characters alone, so that it also works for text that is no program.
-/

namespace TapeMachine.Highlight

/-- Words are made of letters, digits and underscores. -/
def isWordPart (glyph : Char) : Bool :=
  Text.isAlphanumeric glyph || glyph = '_'

/-- Keywords come first, then numbers, then names that a colon follows. -/
def wordStyle (word : List Char) (beforeColon : Bool) : Style :=
  if Keyword.table.any fun keyword => keyword.spelling.toList = word then
    (Style.inColor Palette.keyword).withBold
  else if word.all Char.isDigit then .inColor Palette.number
  else if beforeColon then .inColor Palette.label
  else .inColor Palette.text

def markStyle (glyph : Char) : Style :=
  if glyph = '\x7b' || glyph = '\x7d' || glyph = '(' || glyph = ')' then .inColor Palette.primary
  else if glyph = '^' then (Style.inColor Palette.keyword).withBold
  else .inColor Palette.text

/-- The span of a word that has been read, last character first; none for an empty one. -/
def wordSpan (word : List Char) (beforeColon : Bool) : List Span :=
  if word = [] then [] else [⟨word.reverse, wordStyle word.reverse beforeColon⟩]

/-- The spans of a line behind the beginning of a word, which is given last character first. -/
def spansFrom (word : List Char) : List Char → List Span
  | [] => wordSpan word false
  | '#' :: rest => wordSpan word false ++ [⟨'#' :: rest, .inColor Palette.muted⟩]
  | '\'' :: glyph :: '\'' :: rest =>
      wordSpan word false ++ ⟨['\'', glyph, '\''], .inColor Palette.string⟩ :: spansFrom [] rest
  | glyph :: rest =>
      if isWordPart glyph then spansFrom (glyph :: word) rest
      else wordSpan word (glyph = ':') ++ ⟨[glyph], markStyle glyph⟩ :: spansFrom [] rest

def spans (line : List Char) : List Span :=
  spansFrom [] line

end TapeMachine.Highlight
