import TapeMachine.Viewer.Basic

/-!
Contract: what the keys of the viewer do.

Owns: the keys, the handling of one key, and the step of play mode.

Every key takes back the mark of an error. The digits and the keys that move in time also end play
mode.
-/

namespace TapeMachine

inductive Key where
  | left
  | right
  | up
  | down
  | tab
  | backTab
  | enter
  | backspace
  | glyph (value : Char)
deriving DecidableEq, Repr

/-- The number of steps that a digit from `1` to `9` stands for. -/
def Key.steps? : Key → Option Nat
  | .glyph value => if '1' ≤ value ∧ value ≤ '9' then some (value.toNat - 48) else none
  | _ => none

def Key.quits : Key → Bool
  | .glyph value => value = 'q' || value = 'Q'
  | _ => false

namespace Viewer

def say (viewer : Viewer) (message : String) : Viewer :=
  { viewer with message := message }

def stopPlaying (viewer : Viewer) : Viewer :=
  { viewer with playing := false }

def pressDigit (viewer : Viewer) (steps : Nat) : Except Fault Viewer :=
  match stepMany steps viewer.stopPlaying with
  | .error fault => .error fault
  | .ok (viewer, taken) => .ok (viewer.say s!"Stepped forward {taken} step(s)")

def pressLeft (viewer : Viewer) : Viewer :=
  match viewer.stopPlaying.stepBackward with
  | (viewer, none) => viewer.say "Stepped backward"
  | (viewer, some refusal) => viewer.say s!"Cannot step backward: {refusal.message}"

def pressRight (viewer : Viewer) : Except Fault Viewer :=
  let action := viewer.nextAction
  match viewer.stopPlaying.stepForward with
  | .error fault => .error fault
  | .ok (viewer, none) => .ok (viewer.say s!"Stepped forward: {action}")
  | .ok (viewer, some refusal) => .ok (viewer.say s!"Cannot step forward: {refusal.message}")

def scrollBy (viewer : Viewer) (change : Nat → Nat) : Viewer :=
  { viewer with scroll := viewer.scroll.update viewer.focus change }

/-- Starts or stops play mode, unless the key was pressed just before. -/
def pressSpace (viewer : Viewer) : Viewer :=
  if viewer.spaceReady then
    let playing := !viewer.playing
    { viewer with spaceReady := false, playing := playing }.say
      (if playing then "Playing..." else "Paused")
  else viewer

/-- Jumps to the end of the run, as far as the limit of steps reaches. -/
def pressEnter (viewer : Viewer) : Except Fault Viewer :=
  match stepMany viewer.watched.maxSteps viewer.stopPlaying with
  | .error fault => .error fault
  | .ok (viewer, taken) =>
      .ok (viewer.say
        (if viewer.isFinished then "Jumped to end" else s!"Stopped after {taken} steps"))

def pressBackspace (viewer : Viewer) : Viewer :=
  { viewer.stopPlaying with position := 0 }.say "Jumped to start"

/-- What a key does. Keys without a meaning do nothing but take back the mark of an error. -/
def press (viewer : Viewer) (key : Key) : Except Fault Viewer :=
  let viewer := { viewer with isError := false }
  match key with
  | .left => .ok viewer.pressLeft
  | .right => viewer.pressRight
  | .up => .ok (viewer.scrollBy (· - 1))
  | .down => .ok (viewer.scrollBy (· + 1))
  | .tab => .ok { viewer with focus := viewer.focus.next }
  | .backTab => .ok { viewer with focus := viewer.focus.previous }
  | .enter => viewer.pressEnter
  | .backspace => .ok viewer.pressBackspace
  | .glyph value =>
      if value = ' ' then .ok viewer.pressSpace
      else
        match key.steps? with
        | some steps => viewer.pressDigit steps
        | none => .ok viewer

/-- The step that play mode takes between two keys. -/
def tick (viewer : Viewer) : Except Fault Viewer :=
  if viewer.playing then
    match viewer.stepForward with
    | .error fault => .error fault
    | .ok (viewer, none) => .ok (viewer.say "Playing...")
    | .ok (viewer, some _) => .ok (viewer.stopPlaying.say "Playback complete")
  else .ok viewer

end Viewer

end TapeMachine
