/-!
Contract: the rows in which a text is shown.

Owns: the cut of a text at line feeds.

A line feed ends a row, and a carriage return directly before it belongs to that ending. The last
row needs no ending, but an empty last row is no row.
-/

namespace TapeMachine.Text

/-- A row as it stands before its line feed, without the carriage return of the ending. -/
def dropReturn (row : List Char) : List Char :=
  if row.getLast? = some '\r' then row.dropLast else row

/-- The rows of a text; `current` holds, last first, what has been seen of the row being read. -/
def linesFrom (current : List Char) : List Char → List (List Char)
  | [] => if current = [] then [] else [current.reverse]
  | glyph :: rest =>
      if glyph = '\n' then dropReturn current.reverse :: linesFrom [] rest
      else linesFrom (glyph :: current) rest

def lines (text : List Char) : List (List Char) :=
  linesFrom [] text

end TapeMachine.Text
