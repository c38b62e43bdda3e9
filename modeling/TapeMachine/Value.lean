import TapeMachine.Text.Decimal

/-!
Contract: the values on a machine's stack.

Owns: numbers, single characters and truth values, their types, their text and their order.

Values are equal or ordered only within one type: values of different types are never equal, and
neither comes before the other.
-/

namespace TapeMachine

/-- The type of a value, and the static type of an expression that yields it. -/
inductive ValueType where
  | number
  | character
  | boolean
deriving DecidableEq, Repr

def ValueType.name : ValueType → String
  | .number => "number"
  | .character => "character"
  | .boolean => "boolean"

instance : ToString ValueType := ⟨ValueType.name⟩

inductive Value where
  | number (value : Int)
  | character (value : Char)
  | boolean (value : Bool)
deriving DecidableEq, Repr

namespace Value

def type : Value → ValueType
  | .number _ => .number
  | .character _ => .character
  | .boolean _ => .boolean

def number? : Value → Option Int
  | .number value => some value
  | _ => none

def character? : Value → Option Char
  | .character value => some value
  | _ => none

def boolean? : Value → Option Bool
  | .boolean value => some value
  | _ => none

/-- How two values of one type compare: numbers by size, characters by code point, and `false`
before `true`. Values of different types have no order. -/
def order? : Value → Value → Option Ordering
  | .number left, .number right => some (compare left right)
  | .character left, .character right => some (compare left.toNat right.toNat)
  | .boolean left, .boolean right => some (compare left.toNat right.toNat)
  | _, _ => none

def less (left right : Value) : Bool :=
  order? left right = some .lt

def lessEq (left right : Value) : Bool :=
  order? left right = some .lt || order? left right = some .eq

/-- The text of a value as it is written in a program. -/
def text : Value → List Char
  | .number value => Text.integer value
  | .character value => ['\'', value, '\'']
  | .boolean true => "true".toList
  | .boolean false => "false".toList

theorem number?_eq_some {value : Value} {number : Int} :
    value.number? = some number ↔ value = .number number := by
  cases value <;> simp [number?]

theorem character?_eq_some {value : Value} {glyph : Char} :
    value.character? = some glyph ↔ value = .character glyph := by
  cases value <;> simp [character?]

theorem boolean?_eq_some {value : Value} {truth : Bool} :
    value.boolean? = some truth ↔ value = .boolean truth := by
  cases value <;> simp [boolean?]

end Value

end TapeMachine
