import TapeMachine.Json.Basic

/-!
Contract: the strict reading of JSON text.

Owns: one function for each part of the grammar, which takes the part off the front of a text and
yields it with the rest.

Nothing but the grammar is admitted: no trailing commas, no leading zeros, no raw control
characters in strings, no mark in front, and only spaces, tabs, line feeds and carriage returns
between the parts. A string that denotes no text is admitted, as a value and as a name.
-/

namespace TapeMachine.Json

def isSpace (glyph : Char) : Bool :=
  glyph = ' ' || glyph = '\t' || glyph = '\n' || glyph = '\r'

def skipSpace (text : List Char) : List Char :=
  text.dropWhile isSpace

def takeText : List Char → List Char → Option (List Char)
  | [], text => some text
  | expected :: others, glyph :: text =>
      if glyph = expected then takeText others text else none
  | _ :: _, [] => none

/-- Takes a given character off the front, behind white space. -/
def takeMark (mark : Char) (text : List Char) : Option (List Char) :=
  takeText [mark] (skipSpace text)

/-! ## Strings -/

def hexValue? (glyph : Char) : Option Nat :=
  if '0' ≤ glyph ∧ glyph ≤ '9' then some (glyph.toNat - 48)
  else if 'a' ≤ glyph ∧ glyph ≤ 'f' then some (glyph.toNat - 87)
  else if 'A' ≤ glyph ∧ glyph ≤ 'F' then some (glyph.toNat - 55)
  else none

/-- A part of a string: a character, or the 16-bit unit that a hexadecimal escape names. -/
inductive Piece where
  | glyph (value : Char)
  | unit (value : Nat)
deriving DecidableEq, Repr

def shortEscape? : Char → Option Char
  | '"' => some '"'
  | '\\' => some '\\'
  | '/' => some '/'
  | 'b' => some '\x08'
  | 'f' => some '\x0c'
  | 'n' => some '\n'
  | 'r' => some '\r'
  | 't' => some '\t'
  | _ => none

def unitOf? (first second third fourth : Char) : Option Nat := do
  let first ← hexValue? first
  let second ← hexValue? second
  let third ← hexValue? third
  let fourth ← hexValue? fourth
  return ((first * 16 + second) * 16 + third) * 16 + fourth

/-- Takes the pieces of a string and its closing quote; the opening quote is gone. -/
def takePieces : List Char → Option (List Piece × List Char)
  | [] => none
  | '"' :: rest => some ([], rest)
  | '\\' :: 'u' :: first :: second :: third :: fourth :: rest =>
      match unitOf? first second third fourth with
      | none => none
      | some unit => (takePieces rest).map fun taken => (.unit unit :: taken.1, taken.2)
  | '\\' :: letter :: rest =>
      match shortEscape? letter with
      | none => none
      | some glyph => (takePieces rest).map fun taken => (.glyph glyph :: taken.1, taken.2)
  | glyph :: rest =>
      if glyph.toNat < 0x20 || glyph = '\\' then none
      else (takePieces rest).map fun taken => (.glyph glyph :: taken.1, taken.2)

def isHighSurrogate (unit : Nat) : Bool :=
  0xD800 ≤ unit && unit < 0xDC00

def isLowSurrogate (unit : Nat) : Bool :=
  0xDC00 ≤ unit && unit < 0xE000

/-- The text that pieces denote: a high surrogate has to be followed by a low one. -/
def textOf? : List Piece → Option (List Char)
  | [] => some []
  | .glyph glyph :: rest => (textOf? rest).map (glyph :: ·)
  | .unit high :: .unit low :: rest =>
      if isHighSurrogate high then
        if isLowSurrogate low then
          let code := 0x10000 + (high - 0xD800) * 0x400 + (low - 0xDC00)
          (textOf? rest).map (Char.ofNat code :: ·)
        else none
      else if isLowSurrogate high then none
      else (textOf? (.unit low :: rest)).map (Char.ofNat high :: ·)
  | .unit code :: rest =>
      if isHighSurrogate code || isLowSurrogate code then none
      else (textOf? rest).map (Char.ofNat code :: ·)

/-- Takes a string, both quotes included, behind white space. -/
def takeString (text : List Char) : Option (Option String × List Char) :=
  match skipSpace text with
  | '"' :: rest =>
      (takePieces rest).map fun taken => ((textOf? taken.1).map String.ofList, taken.2)
  | _ => none

/-! ## Numbers -/

/-- Takes a row of digits that is not empty. -/
def takeDigits (text : List Char) : Option (List Char × List Char) :=
  let digits := text.takeWhile Char.isDigit
  if digits = [] then none else some (digits, text.dropWhile Char.isDigit)

/-- Takes the part of a number before the point: a zero, or digits that do not begin with one. -/
def takeWhole : List Char → Option (List Char × List Char)
  | '0' :: rest =>
      match rest with
      | next :: _ => if next.isDigit then none else some (['0'], rest)
      | [] => some (['0'], [])
  | text => takeDigits text

def takeFraction : List Char → Option (List Char × List Char)
  | '.' :: rest => (takeDigits rest).map fun taken => ('.' :: taken.1, taken.2)
  | text => some ([], text)

def takeExponent : List Char → Option (List Char × List Char)
  | mark :: rest =>
      if mark = 'e' ∨ mark = 'E' then
        match rest with
        | sign :: digits =>
            if sign = '+' ∨ sign = '-' then
              (takeDigits digits).map fun taken => (mark :: sign :: taken.1, taken.2)
            else (takeDigits rest).map fun taken => (mark :: taken.1, taken.2)
        | [] => none
      else some ([], mark :: rest)
  | [] => some ([], [])

def takeUnsigned (text : List Char) : Option (List Char × List Char) := do
  let (whole, text) ← takeWhole text
  let (fraction, text) ← takeFraction text
  let (exponent, text) ← takeExponent text
  return (whole ++ fraction ++ exponent, text)

def takeNumber : List Char → Option (List Char × List Char)
  | '-' :: rest => (takeUnsigned rest).map fun taken => ('-' :: taken.1, taken.2)
  | text => takeUnsigned text

/-! ## Values -/

/-- Takes the parts of a list, each behind a comma, and the closing mark. -/
def takeOthers {α : Type} (part : List Char → Option (α × List Char)) (closing : Char) :
    Nat → List Char → Option (List α × List Char)
  | 0, _ => none
  | limit + 1, text =>
      match skipSpace text with
      | ',' :: rest => do
          let (first, rest) ← part rest
          let (others, rest) ← takeOthers part closing limit rest
          return (first :: others, rest)
      | mark :: rest => if mark = closing then some ([], rest) else none
      | [] => none

/-- Takes parts between commas and the closing mark; the opening mark is gone. -/
def takeList {α : Type} (part : List Char → Option (α × List Char)) (closing : Char)
    (limit : Nat) (text : List Char) : Option (List α × List Char) :=
  match takeMark closing text with
  | some rest => some ([], rest)
  | none => do
      let (first, rest) ← part text
      let (others, rest) ← takeOthers part closing limit rest
      return (first :: others, rest)

def takeMember (value : List Char → Option (Json × List Char)) (text : List Char) :
    Option ((Option String × Json) × List Char) := do
  let (name, rest) ← takeString text
  let rest ← takeMark ':' rest
  let (value, rest) ← value rest
  return ((name, value), rest)

/-- Takes a value with at most a number of levels, behind white space; the number also bounds the
length of lists. -/
def takeValue (limit : Nat) : Nat → List Char → Option (Json × List Char)
  | 0, _ => none
  | levels + 1, text =>
      match skipSpace text with
      | [] => none
      | first :: rest =>
          if first = '[' then
            (takeList (takeValue limit levels) ']' limit rest).map fun taken =>
              (.array taken.1, taken.2)
          else if first = '\x7b' then
            (takeList (takeMember (takeValue limit levels)) '\x7d' limit rest).map fun taken =>
              (.object taken.1, taken.2)
          else if first = '"' then
            (takeString (first :: rest)).map fun taken => (.string taken.1, taken.2)
          else if first = 't' then
            (takeText "rue".toList rest).map fun rest => (.boolean true, rest)
          else if first = 'f' then
            (takeText "alse".toList rest).map fun rest => (.boolean false, rest)
          else if first = 'n' then (takeText "ull".toList rest).map fun rest => (.null, rest)
          else (takeNumber (first :: rest)).map fun taken => (.number taken.1, taken.2)

def parse? (text : List Char) : Option Json :=
  match takeValue (text.length + 1) (text.length + 1) text with
  | some (value, rest) => if skipSpace rest = [] then some value else none
  | none => none

end TapeMachine.Json
