import TapeMachine.Grammar.Expression

/-!
Contract: the grammar of statements and blocks.

Owns: the productions of a statement, of a block and of an else branch.

    statement = ';'
              | ('left' | 'right' | '<<' | '>>') expression ';'
              | 'write' expression ';'
              | 'goto' identifier ';'
              | 'if' '(' expression ')' block ('else' block)?
              | 'while' '(' expression ')' block
              | 'halt' ';'
    block     = '{' statement* '}'

Every block has a scope of its own for labels.
-/

namespace TapeMachine.Grammar

def semicolon (earlier : Lexeme) : Parse Unit := do
  let _ ← expect (.symbol .semicolon) earlier .semicolon

def emptyStatement : Parse (Option Statement) :=
  production (only (.symbol .semicolon)) fun sign _ => return .empty sign.line

def moveDirection : Kind → Option Direction
  | .keyword .leftWord => some .left
  | .keyword .shiftLeft => some .left
  | .keyword .rightWord => some .right
  | .keyword .shiftRight => some .right
  | _ => none

def moveStatement (expression : Parse (Option Expression)) : Parse (Option Statement) :=
  production moveDirection fun word direction => do
    let distance ← require expression word .moveDistance
    checkType distance.type .number word (.moveDistance distance.type)
    semicolon word
    return .move direction distance word.line

def writeStatement (expression : Parse (Option Expression)) : Parse (Option Statement) :=
  production (only (.keyword .writeWord)) fun word _ => do
    let value ← require expression word .writtenValue
    checkType value.type .character word (.writtenValue value.type)
    semicolon word
    return .write value word.line

/-- The label has to be visible; that is checked before the semicolon. -/
def gotoStatement : Parse (Option Statement) :=
  production (only (.keyword .gotoWord)) fun word _ => do
    let label ← expect .identifier word .gotoLabel
    if (← get).labels.contains label.text then
      semicolon word
      return .goto label.text word.line
    else
      fail label (.unresolvedLabel label.text)

/-- A boolean expression in parentheses; the type is checked before the closing one. -/
def condition (expression : Parse (Option Expression)) (word : Lexeme) : Parse Expression := do
  let sign ← expect (.symbol .openParen) word .conditionOpening
  let condition ← require expression sign .condition
  checkType condition.type .boolean word (.condition condition.type)
  let _ ← expect (.symbol .closeParen) sign .conditionClosing
  return condition

def elseBranch (block : Parse (Option Block)) : Parse (Option Block) :=
  production (only (.keyword .elseWord)) fun word _ => require block word .elseBlock

def ifStatement (expression : Parse (Option Expression)) (block : Parse (Option Block)) :
    Parse (Option Statement) :=
  production (only (.keyword .ifWord)) fun word _ => do
    let condition ← condition expression word
    let thenBody ← require block word .ifBlock
    match ← elseBranch block with
    | none => return .ifThen condition thenBody word.line
    | some elseBody => return .ifElse condition thenBody elseBody word.line

def whileStatement (expression : Parse (Option Expression)) (block : Parse (Option Block)) :
    Parse (Option Statement) :=
  production (only (.keyword .whileWord)) fun word _ => do
    let condition ← condition expression word
    let body ← require block word .whileBlock
    return .whileLoop condition body word.line

def haltStatement : Parse (Option Statement) :=
  production (only (.keyword .haltWord)) fun word _ => do
    semicolon word
    return .halt word.line

/-- Statements between braces, at most a number of them. -/
def block (statement : Parse (Option Statement)) (limit : Nat) : Parse (Option Block) :=
  production (only (.symbol .openBrace)) fun sign _ => do
    modifyLabels Environment.nest
    let statements ← many statement limit
    modifyLabels Environment.unnest
    let _ ← expect (.symbol .closeBrace) sign .blockClosing
    return .mk statements sign.line

/-- A statement with at most a number of levels; `limit` bounds the levels of its expressions and
the length of its blocks. -/
def statement (limit : Nat) : Nat → Parse (Option Statement)
  | 0 => return none
  | levels + 1 =>
      let expression := expression limit
      let block := block (statement limit levels) limit
      firstOf
        [emptyStatement, moveStatement expression, writeStatement expression, gotoStatement,
          ifStatement expression block, whileStatement expression block, haltStatement]

end TapeMachine.Grammar
