import TapeMachine.Code.Listing
import TapeMachine.Code.Lowering
import TapeMachine.Command.Options
import TapeMachine.Command.Source
import TapeMachine.Snapshot.View

/-!
Contract: what the command line does and prints.

Owns: the demonstration program, the messages, the modes that run, stream and list a program, and
the exit codes.
-/

namespace TapeMachine.Command

structure Report where
  code : Nat
  output : String
  errors : String
deriving DecidableEq, Repr

def versionText : String := "tapestep 0.1.0\n"

def helpText : String :=
  "Compile and step through a tape machine program\n\n" ++
  "Usage: tapestep [OPTIONS] [FILE]\n\n" ++
  "  --mode <tui|json|run|disasm>  What to do with the program\n" ++
  "  --tape <TEXT>                 Initial tape contents\n" ++
  "  --start <CELL>                Starting cell of the cursor\n" ++
  "  --fill <CHARACTER>            Character for freshly grown cells\n" ++
  "  --delay-ms <MILLISECONDS>     Pause between steps\n" ++
  "  --max-steps <COUNT>           Step cap\n"

def demoName : String := "demo"

def demoText : String :=
  "# Writes a name, then turns every leading '0' into '1'.\n" ++
  "print_name:\n" ++
  "\x7b\n" ++
  "    write 'A';\n" ++
  "    right 1; write 'a';\n" ++
  "    right 1; write 'r';\n" ++
  "    right 1; write 'o';\n" ++
  "    right 1; write 'n';\n" ++
  "    right 1;\n" ++
  "    while(= read '0') \x7b write '1'; right 1; \x7d\n" ++
  "    halt;\n" ++
  "\x7d\n" ++
  "left 3;\n" ++
  "goto print_name;\n"

/-- Files are read in chunks of a mebibyte, and ten characters are kept in stock. -/
def fileStream (bytes : List UInt8) : Stream :=
  .ofFeed [.bytes bytes] (1024 * 1024) 10

def parsingLine (name : String) : String :=
  s!"Parsing {name}...\n"

def compiledLine (program : Executable) : String :=
  let count := program.main.instructions.size
  let labels := program.labels.size
  s!"Compiled {count} instructions in main and {labels} label(s).\n"

def stoppedLine (steps : Nat) : String :=
  s!"Stopped after {steps} steps (--max-steps).\n"

def finishedLine (steps : Nat) : String :=
  s!"Finished after {steps} steps.\n"

def line (text : List Char) : String :=
  (String.ofList text).push '\n'

/-- The code of a run that a fault ends. -/
def faultReport (output errors : String) (fault : Fault) : Report :=
  ⟨101, output, errors ++ fault.message ++ "\n"⟩

def startTape (options : Options) : Tape × CursorId :=
  (Tape.ofText options.tape options.fill).register options.start

/-- Runs to the end or to the limit of steps and prints the tape. -/
def runReport (options : Options) (program : Executable) (errors : String) : Report :=
  let (tape, cursor) := startTape options
  let run := (Machine.start program).run cursor options.maxSteps tape
  match run.fault with
  | some fault => faultReport "" errors fault
  | none =>
      let steps := run.machine.steps
      let ending := if run.machine.hasMoreWork then stoppedLine steps else finishedLine steps
      ⟨0, line run.tape.picture, errors ++ ending⟩

/-- Whether the state after a step is the last one that is sent. -/
def isLast (options : Options) (machine : Machine) : Bool :=
  !machine.hasMoreWork || options.maxSteps ≤ machine.steps

/-- Prints what the cursor sees after every step, at least after one. A program without work has
its initial state printed. -/
def jsonReport (options : Options) (program : Executable) (errors : String) : Report :=
  let (tape, cursor) := startTape options
  let machine := Machine.start program
  if machine.hasMoreWork then
    let run :=
      machine.runWith
        (fun (output : String) machine tape =>
          output ++ line ((tape.view cursor).withLast (isLast options machine)).wire)
        cursor (max options.maxSteps 1) "" tape
    match run.fault with
    | some fault => faultReport run.seen errors fault
    | none =>
        let ending := if run.machine.hasMoreWork then stoppedLine run.machine.steps else ""
        ⟨0, run.seen, errors ++ ending⟩
  else ⟨0, line ((tape.view cursor).withLast true).wire, errors⟩

def disasmReport (program : Executable) (errors : String) : Report :=
  ⟨0, String.ofList program.disassemblyText, errors⟩

def executeBuffer (options : Options) (buffer : Buffer) : Report :=
  let parsing := parsingLine buffer.name
  match buffer.compile with
  | .error error => ⟨1, "", parsing ++ s!"Parser error: {error.message}\n"⟩
  | .ok program =>
      let errors := parsing ++ compiledLine program
      match options.mode with
      | .run => runReport options program errors
      | .json => jsonReport options program errors
      | .disasm => disasmReport program errors
      | .tui => ⟨1, "", errors ++ "Error: no terminal to draw on\n"⟩

def execute (options : Options) : Source → Report
  | .demo => executeBuffer options { Buffer.ofText demoText.toList with name := demoName }
  | .missing name => ⟨1, "", s!"Error: File '{name}' not found\n"⟩
  | .folder =>
      ⟨1, "", "Error: Os \x7b code: 21, kind: IsADirectory, message: \"Is a directory\" \x7d\n"⟩
  | .file name bytes =>
      match Text.Utf8.decode? bytes with
      | some _ => executeBuffer options (.ofStream name (fileStream bytes))
      | none =>
          ⟨1, "", "Error: Error \x7b kind: InvalidData, message: " ++
            "\"stream did not contain valid UTF-8\" \x7d\n"⟩

end TapeMachine.Command
