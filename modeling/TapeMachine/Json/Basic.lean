import TapeMachine.Text.Decimal

/-!
Contract: JSON values and their compact text.

Owns: the values, the escapes of strings, and the text of a value without any white space.

A string that names one half of a surrogate pair alone denotes no text; such a value or member
name can be read, but it holds no string.
-/

namespace TapeMachine

inductive Json where
  | null
  | boolean (value : Bool)
  /-- A number as it is written. -/
  | number (digits : List Char)
  /-- A string, none if it is no text. -/
  | string (value : Option String)
  | array (elements : List Json)
  /-- Members in the order of the text; a name is none if it is no text. -/
  | object (members : List (Option String × Json))
deriving Repr

namespace Json

def natural (value : Nat) : Json :=
  .number (Text.decimal value)

def ofString (value : String) : Json :=
  .string (some value)

def record (fields : List (String × Json)) : Json :=
  .object (fields.map fun field => (some field.1, field.2))

/-- The lower-case hexadecimal digit of a number below sixteen. -/
def hexDigit (value : Nat) : Char :=
  if value < 10 then Char.ofNat (48 + value) else Char.ofNat (87 + value)

/-- How a character is written inside a string: quotes, backslashes and control characters are
escaped, everything else stands for itself. -/
def escape (glyph : Char) : List Char :=
  if glyph = '"' then ['\\', '"']
  else if glyph = '\\' then ['\\', '\\']
  else if glyph = '\x08' then ['\\', 'b']
  else if glyph = '\x0c' then ['\\', 'f']
  else if glyph = '\n' then ['\\', 'n']
  else if glyph = '\r' then ['\\', 'r']
  else if glyph = '\t' then ['\\', 't']
  else if glyph.toNat < 0x20 then
    ['\\', 'u', '0', '0', hexDigit (glyph.toNat / 16), hexDigit (glyph.toNat % 16)]
  else [glyph]

def quoted (value : List Char) : List Char :=
  '"' :: (value.flatMap escape ++ ['"'])

mutual

def text : Json → List Char
  | .null => "null".toList
  | .boolean true => "true".toList
  | .boolean false => "false".toList
  | .number digits => digits
  | .string value => quoted (value.getD "").toList
  | .array [] => ['[', ']']
  | .array (first :: others) => '[' :: (first.text ++ elementsText others)
  | .object [] => ['\x7b', '\x7d']
  | .object ((name, value) :: others) =>
      '\x7b' :: (quoted (name.getD "").toList ++ ':' :: (value.text ++ membersText others))

/-- The elements behind the first one, and the closing bracket. -/
def elementsText : List Json → List Char
  | [] => [']']
  | next :: others => ',' :: (next.text ++ elementsText others)

/-- The members behind the first one, and the closing brace. -/
def membersText : List (Option String × Json) → List Char
  | [] => ['\x7d']
  | (name, value) :: others =>
      ',' :: (quoted (name.getD "").toList ++ ':' :: (value.text ++ membersText others))

end

end Json

end TapeMachine
