import TapeMachine.Proofs.Code.Layout
import TapeMachine.Proofs.Machine.Traversal
import TapeMachine.Proofs.Syntax.Printing

/-!
Contract: printing an expression and parsing the text again keeps its meaning.

Owns: the expressions that parsing comes to, what the code of an expression does to a machine, and
the parser's agreement with the tree that a text is read back as.
-/

namespace TapeMachine

/-- An expression that parsing comes to: what the rule for expressions yields, wherever the parser
stands, or a part of a program, at any depth. -/
inductive Expression.Parsed : Expression → Prop where
  | alone {levels : Nat} {parser behind : Parser} {place : Place} {marked : List (List Lexeme)}
      {ending : Option LexError} {expression : Expression} (stands : parser.At place marked ending)
      (found : Grammar.expression levels parser = .ok (some expression) behind) : Parsed expression
  | inside {text : List Char} {program : Program} {expression : Expression}
      (accepted : (Buffer.ofText text).parse.1 = .ok program)
      (member : expression ∈ program.expressions) : Parsed expression

theorem Expression.Parsed.admitted {expression : Expression} (parsed : expression.Parsed) :
    HasType expression expression.type ∧ expression.InRange := by
  cases parsed with
  | @alone levels parser behind place marked ending _ stands found =>
      obtain ⟨_, -, ensured⟩ := Grammar.finds_expression levels place parser marked stands
      rw [found] at ensured
      obtain ⟨tokens, -, -, admitted⟩ := ensured
      exact ⟨admitted.typed, admitted.phrase.inRange admitted.range⟩
  | inside accepted member =>
      have accepted := accepted_of_parse accepted
      exact ⟨accepted.typed.hasType expression member,
        accepted.phrase.inRange accepted.range expression member⟩

/-- Where a cursor reads a character, the code of an expression leaves a value on the stack:
wherever it stands in a sequence, in one step for each instruction, and with the same tape behind
it. -/
def Expression.Leaves (expression : Expression) (glyph : Char) (value : Value) : Prop :=
  ∀ (program : Executable) (cursor : CursorId) (code : Array Instruction) (index : Nat)
    (stack : List Value) (tape : Tape),
    Contains code index expression.code.instructions → tape.read cursor = .ok glyph →
      Traverses program cursor code expression.code.length ⟨index, stack, tape⟩
        ⟨index + expression.code.length, value :: stack, tape⟩

theorem Expression.leaves_of_evaluate {expression : Expression} {glyph : Char} {value : Value}
    (evaluates : expression.evaluate glyph = .ok value) : expression.Leaves glyph value :=
  fun _ _ _ _ _ _ here reads => traverses here reads evaluates

/-- A parser that has nothing but the text of an expression in front of it. -/
def Parser.reading (expression : Expression) : Parser :=
  .ofBuffer (.ofText expression.text)

/-- The tokens of an expression's text are a phrase of the tree that its text has. -/
theorem Expression.InRange.tokens {expression : Expression} (range : expression.InRange) :
    ∃ tree, (tokensOf expression.text).2 = none ∧
      ExpressionPhrase (tokensOf expression.text).1 tree ∧
      AllInRange (tokensOf expression.text).1 ∧
      tree.relocate .oneLine = expression.readBack.relocate .oneLine := by
  obtain ⟨tokens, tree, tiled, phrase, within, same⟩ := Expression.reads range textSourceName [] []
    [] none (by simp [Delimits]) (.finished .nothing)
  rw [List.append_nil, List.append_nil] at tiled
  have found : tokensOf expression.text = (tokens, none) := by
    rw [tokensOf_eq, Buffer.passage_ofText, lex_of_tiled tiled]
  rw [found]
  exact ⟨tree, rfl, phrase, within, same⟩

/-- The text of a checked expression is parsed to its end, as the tree that its text has. -/
theorem Expression.parse_text {expression : Expression} (typed : HasType expression expression.type)
    (range : expression.InRange) :
    ∃ tree behind, Grammar.expression (Parser.reading expression).limit (.reading expression) =
        .ok (some tree) behind ∧
      behind.lexer.next.1 = .ok none ∧
      tree.relocate .oneLine = expression.readBack.relocate .oneLine := by
  obtain ⟨tree, lexes, phrase, within, same⟩ := range.tokens
  have stands : (Parser.reading expression).At
      ⟨(tokensOf expression.text).1, .empty⟩ [] (tokensOf expression.text).2 :=
    parser_at_start expression.text
  have enough : (tokensOf expression.text).1.length ≤ (Parser.reading expression).limit :=
    length_tokensOf_le expression.text
  rw [lexes, ← List.append_nil (tokensOf expression.text).1] at stands
  have treeType : HasType tree expression.type := by
    have moved := typed.readBack.relocate .oneLine
    rw [← same] at moved
    exact moved.of_relocate
  obtain ⟨place, after, followed⟩ := Grammar.follows_expression phrase
    (fun _ => spelled_of_mem_tokensOf) _ enough [] _ _ stands
  cases parsed : Grammar.expression (Parser.reading expression).limit (.reading expression) with
  | error error behind =>
      rw [parsed] at followed
      exact absurd ⟨treeType.type_eq ▸ treeType, within⟩ followed
  | ok found behind =>
      rw [parsed] at followed after
      obtain ⟨rfl, rfl⟩ := followed
      have finished : behind.At ⟨[], .empty⟩ [] none := after
      refine ⟨tree, behind, rfl, ?_, same⟩
      rw [(Lexer.next_spec finished.steady).1, finished.outlook]
      rfl

/-- Printing an expression and parsing the text again keeps its meaning. The whole text is used up;
lines apart, the tree is the one that the text is read back as, and it has the same type; and where
the cursor reads the same character, the code of both leaves the same value. -/
theorem printing_keeps_meaning (expression : Expression) (parsed : expression.Parsed) :
    ∃ tree behind, Grammar.expression (Parser.reading expression).limit (.reading expression) =
        .ok (some tree) behind ∧
      behind.lexer.next.1 = .ok none ∧
      tree.relocate .oneLine = expression.readBack.relocate .oneLine ∧
      tree.type = expression.type ∧
      ∀ glyph, ∃ value, value.type = expression.type ∧ expression.Leaves glyph value ∧
        tree.Leaves glyph value := by
  obtain ⟨typed, range⟩ := parsed.admitted
  obtain ⟨tree, behind, found, finished, same⟩ := Expression.parse_text typed range
  refine ⟨tree, behind, found, finished, same, ?_, fun glyph => ?_⟩
  · have sameType := congrArg Expression.type same
    rw [Expression.type_relocate, Expression.type_relocate] at sameType
    rw [sameType, typed.readBack.type_eq]
  · obtain ⟨value, evaluates, valueType⟩ := typed.evaluate glyph
    have evaluated : tree.evaluate glyph = .ok value := by
      have sameValue := congrArg (Expression.evaluate glyph) same
      rwa [Expression.evaluate_relocate, Expression.evaluate_relocate, Expression.evaluate_readBack,
        evaluates] at sameValue
    exact ⟨value, valueType, Expression.leaves_of_evaluate evaluates,
      Expression.leaves_of_evaluate evaluated⟩

/-- A negated equation; printed, its two signs run together. -/
def negatedEquation : Expression :=
  .negation (.binary .equal (.read 1) (.literal (.character 'a') 1) 1) 1

theorem printing_keeps_meaning_negatedEquation :
    negatedEquation.Parsed ∧ negatedEquation.text = "!= read 'a'".toList ∧
      ∃ tree behind, Grammar.expression (Parser.reading negatedEquation).limit
          (.reading negatedEquation) = .ok (some tree) behind ∧
        tree.relocate .oneLine =
          .binary .notEqual (.read 0) (.literal (.character 'a') 0) 0 ∧
        ∃ value, negatedEquation.Leaves 'b' value ∧ tree.Leaves 'b' value := by
  have parsed : negatedEquation.Parsed := by
    have checked :
        (resultOf (Grammar.expression 4 (.ofBuffer (.ofText "! = ^ 'a'".toList)))).toOption =
          some (some negatedEquation) := by
      decide +kernel
    cases found : Grammar.expression 4 (.ofBuffer (.ofText "! = ^ 'a'".toList)) with
    | error error behind =>
        rw [found] at checked
        contradiction
    | ok result behind =>
        rw [found] at checked
        obtain rfl : result = some negatedEquation := Option.some.inj checked
        exact .alone (parser_at_start "! = ^ 'a'".toList) found
  obtain ⟨tree, behind, found, -, same, -, meaning⟩ := printing_keeps_meaning negatedEquation parsed
  obtain ⟨value, -, leaves, leavesTree⟩ := meaning 'b'
  exact ⟨parsed, rfl, tree, behind, found, same, value, leaves, leavesTree⟩

end TapeMachine
