import TapeMachine.Screen.Grid

/-!
Contract: lists on a screen.

Owns: list items, which may take several lines, and their drawing one below the other.

The style of an item covers the whole width of its rows. An item that does not fit as a whole ends
the list.
-/

namespace TapeMachine

structure ListItem where
  style : Style
  lines : List Line
deriving DecidableEq, Repr

/-- An item of a single line that sets no style of its own. -/
def ListItem.ofSpans (spans : List Span) : ListItem :=
  ⟨.plain, [spans]⟩

/-- An item of plain text, one line for each of its rows. -/
def ListItem.ofText (style : Style) (text : List Char) : ListItem :=
  ⟨style, (Text.lines text).map fun row => [⟨row, .plain⟩]⟩

/-- Draws items from a row of an area on. -/
def Screen.drawItems (screen : Screen) (area : Area) (row : Nat) : List ListItem → Screen
  | [] => screen
  | item :: others =>
      let height := item.lines.length
      if row + height ≤ area.height then
        let place : Area := ⟨area.x, area.y + row, area.width, height⟩
        ((screen.paint place item.style).drawLines place item.lines).drawItems area (row + height)
          others
      else screen

end TapeMachine
