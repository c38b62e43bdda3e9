import TapeMachine.Pane.Listing
import TapeMachine.Pane.Source
import TapeMachine.Pane.Stack
import TapeMachine.Pane.Status
import TapeMachine.Pane.Tape
import TapeMachine.Viewer.Keys

/-!
Contract: the screen of the viewer and its sessions.

Owns: the division of the screen, the drawing of all panes, and the session, which draws before
every key.

Five rows at the top show the tape and the last row is the status bar. The rows between are divided
at 45 and at 80 percent of the width among source, program and stack. Drawing keeps the offsets
that the panes were drawn with.
-/

namespace TapeMachine

structure Layout where
  tape : Area
  source : Area
  program : Area
  stack : Area
  status : Area
deriving DecidableEq, Repr

def Layout.of (width height : Nat) : Layout :=
  let top := min 5 (height - 1)
  let middle := height - top - 1
  let first := percentOf width 45
  let second := percentOf width 80
  { tape := ⟨0, 0, width, top⟩
    source := ⟨0, top, first, middle⟩
    program := ⟨first, top, second - first, middle⟩
    stack := ⟨second, top, width - second, middle⟩
    status := ⟨0, height - 1, width, min height 1⟩ }

namespace Viewer

def status (viewer : Viewer) : Pane.Status where
  message := viewer.message
  position := viewer.position
  recorded := viewer.history.size
  finished := viewer.isFinished
  playing := viewer.playing
  isError := viewer.isError

/-- Draws everything, and keeps how far the panes are scrolled then. -/
def draw (viewer : Viewer) (width height : Nat) : Screen × Viewer :=
  let layout := Layout.of width height
  let offsets := viewer.scroll
  let (screen, source) :=
    Pane.Source.draw (.blank width height) layout.source viewer.watched.sourceName
      viewer.watched.sourceText viewer.currentLine? (viewer.focus = .source) offsets.source
  let (screen, offsets) :=
    match viewer.shown? with
    | none => (screen, { offsets with source := source })
    | some snapshot =>
        let (screen, tape) :=
          Pane.Tape.draw screen layout.tape snapshot.view (viewer.focus = .tape) offsets.tape
        let instructions := (viewer.machine.program.instructions? snapshot.routine).getD #[]
        let (screen, program) :=
          Pane.Listing.draw screen layout.program snapshot.routine instructions.toList
            snapshot.index (viewer.focus = .program) offsets.program
        let (screen, stack) :=
          Pane.Stack.draw screen layout.stack snapshot.stack snapshot.pendingCells
            (viewer.focus = .stack) offsets.stack
        (screen, ⟨source, program, stack, tape⟩)
  (viewer.status.draw screen layout.status, { viewer with scroll := offsets })

/-- Draws, and keeps nothing of it but how far the panes are scrolled. -/
def drawn (viewer : Viewer) (width height : Nat) : Viewer :=
  (viewer.draw width height).2

/-- A session on a screen: before each key everything is drawn and play mode takes a step, and a
key that quits ends the session with a last drawing. -/
def session (width height : Nat) : List Key → Viewer → Except Fault Viewer
  | [], viewer => .ok viewer
  | key :: keys, viewer =>
      match (viewer.drawn width height).tick with
      | .error fault => .error fault
      | .ok viewer =>
          match viewer.press key with
          | .error fault => .error fault
          | .ok viewer =>
              if key.quits then .ok (viewer.drawn width height)
              else session width height keys viewer

end Viewer

end TapeMachine
