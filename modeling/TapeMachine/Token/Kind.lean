/-!
Contract: the kinds of token, in the order of the token table.

Owns: the single-character symbols and the keywords with their spellings, the kinds of token whose
text varies, the numeric code of each kind and its name in messages.

The order of `Kind.table` matters twice: it numbers the keywords, and it settles which kind is
tried first.
-/

namespace TapeMachine

inductive Symbol where
  | semicolon
  | caret
  | greater
  | less
  | colon
  | equal
  | bang
  | openBrace
  | closeBrace
  | openParen
  | closeParen
  | ampersand
  | bar
deriving DecidableEq, Repr

namespace Symbol

def table : List Symbol :=
  [.semicolon, .caret, .greater, .less, .colon, .equal, .bang, .openBrace, .closeBrace, .openParen,
    .closeParen, .ampersand, .bar]

def glyph : Symbol → Char
  | .semicolon => ';'
  | .caret => '^'
  | .greater => '>'
  | .less => '<'
  | .colon => ':'
  | .equal => '='
  | .bang => '!'
  | .openBrace => '{'
  | .closeBrace => '}'
  | .openParen => '('
  | .closeParen => ')'
  | .ampersand => '&'
  | .bar => '|'

end Symbol

/-- Tokens with a fixed spelling that is a word or a pair of characters. -/
inductive Keyword where
  | ifWord
  | elseWord
  | whileWord
  | readWord
  | writeWord
  | gotoWord
  | leftWord
  | rightWord
  | notEqual
  | shiftLeft
  | shiftRight
  | lessEqual
  | greaterEqual
  | trueWord
  | falseWord
  | haltWord
deriving DecidableEq, Repr

namespace Keyword

def table : List Keyword :=
  [.ifWord, .elseWord, .whileWord, .readWord, .writeWord, .gotoWord, .leftWord, .rightWord,
    .notEqual, .shiftLeft, .shiftRight, .lessEqual, .greaterEqual, .trueWord, .falseWord, .haltWord]

def spelling : Keyword → String
  | .ifWord => "if"
  | .elseWord => "else"
  | .whileWord => "while"
  | .readWord => "read"
  | .writeWord => "write"
  | .gotoWord => "goto"
  | .leftWord => "left"
  | .rightWord => "right"
  | .notEqual => "!="
  | .shiftLeft => "<<"
  | .shiftRight => ">>"
  | .lessEqual => "<="
  | .greaterEqual => ">="
  | .trueWord => "true"
  | .falseWord => "false"
  | .haltWord => "halt"

/-- The codes of the keywords follow the table, from 303 on. -/
def code (keyword : Keyword) : Int :=
  303 + table.idxOf keyword

end Keyword

inductive Kind where
  | symbol (sign : Symbol)
  | keyword (word : Keyword)
  | literal
  | comment
  | identifier
  | integer
deriving DecidableEq, Repr

namespace Kind

/-- Every kind, in the order in which the kinds are tried. -/
def table : List Kind :=
  Symbol.table.map .symbol ++ Keyword.table.map .keyword ++
    [.literal, .comment, .identifier, .integer]

/-- The text of a token of the kind, where the kind has only one. -/
def spelling? : Kind → Option (List Char)
  | .symbol sign => some [sign.glyph]
  | .keyword word => some word.spelling.toList
  | _ => none

/-- A symbol's code is its code point. -/
def code : Kind → Int
  | .symbol sign => sign.glyph.toNat
  | .keyword word => word.code
  | .literal => 300
  | .integer => 301
  | .identifier => 302
  | .comment => -1

def name : Kind → String
  | .symbol sign => s!"'{sign.glyph}'"
  | .keyword word => s!"'{word.spelling}'"
  | .literal => "character literal"
  | .integer => "integer"
  | .identifier => "identifier"
  | .comment => "comment"

/-- The kinds with a fixed spelling, in the order of the table. -/
def fixed : List (Kind × List Char) :=
  table.filterMap fun kind => kind.spelling?.map fun text => (kind, text)

/-- The kinds whose text varies, in the order of the table. -/
def varied : List Kind :=
  [.literal, .comment, .identifier, .integer]

end Kind

end TapeMachine
