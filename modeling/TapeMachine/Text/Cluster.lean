import TapeMachine.Text.Joining

/-!
Contract: the division of a text into clusters, the units that a reader perceives as one character.

Owns: the rule that says where a cluster ends.

No character is lost: the clusters one after the other are the text.
-/

namespace TapeMachine.Text

/-- The end of a cluster, as far as it matters for what can still join it. -/
inductive Edge where
  | closed
  /-- Only a line feed joins. -/
  | carriageReturn
  /-- Everything joins that is no control. -/
  | lead
  /-- A consonant with nothing behind it but marks that leave it open. -/
  | consonant
  /-- Such a consonant with a linker among the marks. -/
  | linked
  | vowel
  /-- Half of a flag that waits for the other half. -/
  | indicator
  | plain
deriving DecidableEq, Repr

namespace Edge

def start : Joining → Edge
  | .carriageReturn => .carriageReturn
  | .lineFeed | .control => .closed
  | .lead => .lead
  | .consonant => .consonant
  | .vowel => .vowel
  | .indicator => .indicator
  | .mark | .extender | .linker | .other => .plain

def joins : Edge → Joining → Bool
  | .carriageReturn, .lineFeed => true
  | .carriageReturn, _ => false
  | .closed, _ => false
  | _, .carriageReturn => false
  | _, .lineFeed => false
  | _, .control => false
  | _, .mark => true
  | _, .extender => true
  | _, .linker => true
  | .lead, _ => true
  | .linked, .consonant => true
  | .vowel, .vowel => true
  | .indicator, .indicator => true
  | _, _ => false

/-- The end of a cluster that a character has joined. -/
def after : Edge → Joining → Edge
  | .consonant, .extender => .consonant
  | .consonant, .linker => .linked
  | .linked, .extender => .linked
  | .linked, .linker => .linked
  | .indicator, .indicator => .plain
  | _, joining => start joining

end Edge

/-- The clusters of a text behind the beginning of one, which is given last character first. -/
def clustersFrom (edge : Edge) (current : List Char) : List Char → List (List Char)
  | [] => [current.reverse]
  | glyph :: rest =>
      let joining := Joining.of glyph
      if edge.joins joining then clustersFrom (edge.after joining) (glyph :: current) rest
      else current.reverse :: clustersFrom (.start joining) [glyph] rest

def clusters : List Char → List (List Char)
  | [] => []
  | glyph :: rest => clustersFrom (.start (.of glyph)) [glyph] rest

end TapeMachine.Text
