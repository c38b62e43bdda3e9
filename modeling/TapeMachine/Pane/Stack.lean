import TapeMachine.Pane.Border
import TapeMachine.Pane.Scroll
import TapeMachine.Screen.Items
import TapeMachine.Value

/-!
Contract: the pane with the stack.

Owns: the items for the move in progress and for each value, top first.
-/

namespace TapeMachine.Pane.Stack

def valueStyle : Value → Style
  | .number _ => .inColor Palette.number
  | .character _ => .inColor Palette.string
  | .boolean _ => .inColor Palette.keyword

def valueItem (value : Value) (top : Bool) : ListItem :=
  .ofSpans
    [⟨(if top then "top " else "    ").toList, .inColor Palette.muted⟩,
      ⟨value.text, valueStyle value⟩,
      ⟨"  : ".toList ++ value.type.name.toList, .inColor Palette.muted⟩]

def moveItem (pendingCells : Nat) : ListItem :=
  .ofSpans
    [⟨"moving ".toList, (Style.inColor Palette.secondary).withBold⟩,
      ⟨Text.decimal pendingCells ++ " more cell(s)".toList, .inColor Palette.text⟩]

def emptyItem : ListItem :=
  .ofText (.inColor Palette.muted) "(empty)".toList

/-- All items; the stack is given top first. -/
def items (stack : List Value) (pendingCells : Nat) : List ListItem :=
  (if 0 < pendingCells then [moveItem pendingCells] else []) ++
    match stack with
    | [] => [emptyItem]
    | top :: others => valueItem top true :: others.map fun value => valueItem value false

/-- Draws the pane and gives the offset that it was drawn with. -/
def draw (screen : Screen) (area : Area) (stack : List Value) (pendingCells : Nat)
    (focused : Bool) (old : Nat) : Screen × Nat :=
  let framed := drawFrame screen area " Stack ".toList focused
  let items := items stack pendingCells
  let visible := Scroll.visibleHeight area.height
  let offset := Scroll.clamp old items.length visible
  (framed.drawItems area.inside 0 (Scroll.window offset visible items), offset)

end TapeMachine.Pane.Stack
