import TapeMachine.Screen.Grid

/-!
Contract: the frame of a pane.

Owns: the border style, which shows whether the pane has the focus, and the framed area.
-/

namespace TapeMachine.Pane

def borderStyle (focused : Bool) : Style :=
  if focused then (Style.inColor Palette.focusedBorder).withBold else .inColor Palette.border

def drawFrame (screen : Screen) (area : Area) (title : List Char) (focused : Bool) : Screen :=
  screen.drawBox area title (borderStyle focused)

end TapeMachine.Pane
