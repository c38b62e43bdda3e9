import TapeMachine.Tape.Basic
import TapeMachine.Text.Decimal

/-!
Contract: the arguments of the command line.

Owns: the options with their defaults, the reading of arguments, and what is asked for.

An option's value follows behind an equals sign or as the next argument. As the next argument it
must not look like an option itself: it begins with a dash only if it is a single dash, or a
negative number where one is expected. An option is given once at most, and two dashes end the
options. The first argument that asks for the version or for help decides.
-/

namespace TapeMachine.Command

inductive Mode where
  | tui
  | json
  | run
  | disasm
deriving DecidableEq, Repr

structure Options where
  /-- The file with the program; without one the demonstration is used. -/
  file : Option String
  mode : Mode
  tape : List Char
  /-- Where the cursor starts, counted from the left edge. -/
  start : Int
  fill : Char
  /-- The pause between steps in milliseconds. -/
  delay : Option Nat
  maxSteps : Nat
deriving DecidableEq, Repr

inductive Request where
  | execute (options : Options)
  | version
  | help
  | rejected
deriving DecidableEq, Repr

inductive OptionName where
  | mode
  | tape
  | start
  | fill
  | delay
  | maxSteps
deriving DecidableEq, Repr

def OptionName.ofText? (text : List Char) : Option OptionName :=
  if text = "mode".toList then some .mode
  else if text = "tape".toList then some .tape
  else if text = "start".toList then some .start
  else if text = "fill".toList then some .fill
  else if text = "delay-ms".toList then some .delay
  else if text = "max-steps".toList then some .maxSteps
  else none

def defaultMaxSteps : Nat := 1000000

def Options.default : Options where
  file := none
  mode := .tui
  tape := []
  start := 0
  fill := defaultFill
  delay := none
  maxSteps := defaultMaxSteps

def modeOf? (text : List Char) : Option Mode :=
  if text = "tui".toList then some .tui
  else if text = "json".toList then some .json
  else if text = "run".toList then some .run
  else if text = "disasm".toList then some .disasm
  else none

/-- An integer of 64 bits. -/
def signedOf? (text : List Char) : Option Int :=
  match Text.integer? text with
  | some value =>
      if -0x8000000000000000 ≤ value ∧ value < 0x8000000000000000 then some value else none
  | none => none

/-- A natural number of 64 bits, which may have a plus sign. -/
def unsignedOf? (text : List Char) : Option Nat :=
  let digits :=
    match text with
    | '+' :: digits => digits
    | digits => digits
  match Text.decimal? digits with
  | some value => if value < 0x10000000000000000 then some value else none
  | none => none

/-- The options with one of them set to what a text says. -/
def setOption (options : Options) (name : OptionName) (text : List Char) : Option Options :=
  match name with
  | .mode => (modeOf? text).map fun mode => { options with mode := mode }
  | .tape => some { options with tape := text }
  | .start => (signedOf? text).map fun start => { options with start := start }
  | .fill =>
      match text with
      | [fill] => some { options with fill := fill }
      | _ => none
  | .delay => (unsignedOf? text).map fun delay => { options with delay := some delay }
  | .maxSteps => (unsignedOf? text).map fun limit => { options with maxSteps := limit }

/-- Whether an argument begins with a dash and is more than that. -/
def looksLikeOption : List Char → Bool
  | '-' :: _ :: _ => true
  | _ => false

/-- Whether an argument can be the value of an option before it. -/
def canBeValue (name : OptionName) (text : List Char) : Bool :=
  !looksLikeOption text ||
    match name, text with
    | .start, '-' :: digits => digits.all Char.isDigit
    | _, _ => false

/-- The options so far, and which of them have been given. -/
structure Progress where
  options : Options
  given : List OptionName

def Progress.set (progress : Progress) (name : OptionName) (text : List Char) :
    Option Progress :=
  if progress.given.contains name then none
  else (setOption progress.options name text).map fun options => ⟨options, name :: progress.given⟩

def Progress.setFile (progress : Progress) (name : List Char) : Option Progress :=
  if progress.options.file.isSome || name.isEmpty then none
  else some { progress with options := { progress.options with file := some (.ofList name) } }

/-- Reads the arguments behind the two dashes that end the options. -/
def readFiles (progress : Progress) : List (List Char) → Request
  | [] => .execute progress.options
  | name :: others =>
      match progress.setFile name with
      | some progress => readFiles progress others
      | none => .rejected

/-- The name of a long option, and its value if there is an equals sign. -/
def splitLong (text : List Char) : List Char × Option (List Char) :=
  match text.dropWhile (· ≠ '=') with
  | [] => (text, none)
  | _ :: value => (text.takeWhile (· ≠ '='), some value)

def readArguments (progress : Progress) : List (List Char) → Request
  | [] => .execute progress.options
  | ['-', '-'] :: others => readFiles progress others
  | ('-' :: '-' :: text) :: others =>
      let (name, value) := splitLong text
      if name = "version".toList ∧ value = none then .version
      else if name = "help".toList ∧ value = none then .help
      else
        match OptionName.ofText? name with
        | none => .rejected
        | some name =>
            match value with
            | some value =>
                match progress.set name value with
                | some progress => readArguments progress others
                | none => .rejected
            | none =>
                match others with
                | [] => .rejected
                | value :: others =>
                    if canBeValue name value then
                      match progress.set name value with
                      | some progress => readArguments progress others
                      | none => .rejected
                    else .rejected
  | ('-' :: letter :: _) :: _ =>
      if letter = 'V' then .version else if letter = 'h' then .help else .rejected
  | name :: others =>
      match progress.setFile name with
      | some progress => readArguments progress others
      | none => .rejected

def request (arguments : List String) : Request :=
  readArguments ⟨.default, []⟩ (arguments.map String.toList)

end TapeMachine.Command
