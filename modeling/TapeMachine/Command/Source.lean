/-!
Contract: where a program comes from.

Owns: the folder that the command works in, and the way that a path leads from it.

Of the folders around the working folder nothing is known but that they exist.
-/

namespace TapeMachine.Command

inductive Source where
  | demo
  | missing (name : String)
  /-- There is a folder where the file should be. -/
  | folder
  | file (name : String) (bytes : List UInt8)
deriving DecidableEq, Repr

structure Folder where
  files : List (String × List UInt8)
deriving DecidableEq, Repr

inductive Place where
  | working
  /-- A folder around the working folder. -/
  | outside
  | file (bytes : List UInt8)
deriving DecidableEq, Repr

def pathSteps : List Char → List (List Char)
  | [] => [[]]
  | glyph :: rest =>
      if glyph = '/' then [] :: pathSteps rest
      else
        match pathSteps rest with
        | [] => [[glyph]]
        | step :: others => (glyph :: step) :: others

namespace Folder

def file? (folder : Folder) (name : List Char) : Option (List UInt8) :=
  folder.files.lookup (String.ofList name)

/-- Takes one step. An empty one and a dot stay in a folder, two dots leave it, and no step leads
on from a file. -/
def step? (folder : Folder) : Place → List Char → Option Place
  | .file _, _ => none
  | place, [] => some place
  | place, ['.'] => some place
  | _, ['.', '.'] => some .outside
  | .working, name => (folder.file? name).map .file
  | .outside, _ => none

/-- Where a path leads; one that begins with a slash begins outside. -/
def find? (folder : Folder) (path : List Char) : Option Place :=
  let start : Place := if path.head? = some '/' then .outside else .working
  (pathSteps path).foldlM folder.step? start

def source (folder : Folder) : Option String → Source
  | none => .demo
  | some path =>
      match folder.find? path.toList with
      | none => .missing path
      | some (.file bytes) => .file path bytes
      | some _ => .folder

end Folder

end TapeMachine.Command
