import TapeMachine.Command.Execute

/-!
Contract: the program that is run from the command line.

It reads the file that the arguments name and prints what `Command.execute` reports.
-/

namespace TapeMachine.Command

def loadSource : Option String → IO Source
  | none => return .demo
  | some name => do
      try
        let path ← IO.FS.realPath name
        if ← path.isDir then return .folder
        let bytes ← IO.FS.readBinFile name
        return .file name bytes.toList
      catch _ => return .missing name

def printReport (report : Report) : IO UInt32 := do
  IO.eprint report.errors
  IO.print report.output
  return UInt32.ofNat report.code

end TapeMachine.Command

open TapeMachine.Command in
def main (arguments : List String) : IO UInt32 := do
  match request arguments with
  | .rejected => printReport ⟨2, "", helpText⟩
  | .version => printReport ⟨0, versionText, ""⟩
  | .help => printReport ⟨0, helpText, ""⟩
  | .execute options => printReport (execute options (← loadSource options.file))
