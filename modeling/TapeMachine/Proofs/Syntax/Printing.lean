import TapeMachine.Proofs.Syntax.Meaning
import TapeMachine.Proofs.Syntax.Phrase
import TapeMachine.Proofs.Syntax.Relocation
import TapeMachine.Proofs.Text.Decimal
import TapeMachine.Proofs.Token.Layout

/-!
Contract: the text of an expression, read as a text of a program.

Owns: the tree that the text of an expression is read back as, its type and value, and the tokens of
the text, which are a phrase of this tree.

Does not own: the parser that finds the phrase; `Proofs.Grammar.Printing` reads the text with it.

A negation sign is shown without a blank behind it. In front of an equals sign both are one token,
the operator for unequal values, so the tree that is read back is another one with the same value.
Nothing else that is shown side by side runs together.
-/

namespace TapeMachine

/-! ## The tree that is read back -/

/-- The tree that the text of an expression has: a negated equation is read as an inequality. -/
def Expression.readBack : Expression → Expression
  | .binary op left right line => .binary op left.readBack right.readBack line
  | .negation (.binary .equal left right _) line =>
      .binary .notEqual left.readBack right.readBack line
  | .negation operand line => .negation operand.readBack line
  | .nested inner line => .nested inner.readBack line
  | .read line => .read line
  | .literal value line => .literal value line

theorem Expression.readBack_negation {operand : Expression} (line : Nat)
    (other : ∀ left right inner, operand = .binary .equal left right inner → False) :
    (Expression.negation operand line).readBack = .negation operand.readBack line :=
  readBack.eq_3 operand line other

theorem HasType.readBack {expression : Expression} {type : ValueType}
    (typed : HasType expression type) : HasType expression.readBack type := by
  induction expression using Expression.readBack.induct generalizing type with
  | case1 op left right line leftHypothesis rightHypothesis =>
      cases typed with
      | comparison plain leftType rightType =>
          exact .comparison plain (leftHypothesis leftType) (rightHypothesis rightType)
      | logical logical leftType rightType =>
          exact .logical logical (leftHypothesis leftType) (rightHypothesis rightType)
  | case2 left right inner line leftHypothesis rightHypothesis =>
      cases typed with
      | negation operandType =>
          cases operandType with
          | comparison plain leftType rightType =>
              exact .comparison rfl (leftHypothesis leftType) (rightHypothesis rightType)
          | logical logical => contradiction
  | case3 operand line other inductionHypothesis =>
      rw [Expression.readBack_negation line other]
      cases typed with
      | negation operandType => exact .negation (inductionHypothesis operandType)
  | case4 inner line inductionHypothesis =>
      cases typed with
      | nested innerType => exact .nested (inductionHypothesis innerType)
  | case5 line => exact typed
  | case6 value line => exact typed

theorem Expression.evaluate_readBack (glyph : Char) (expression : Expression) :
    expression.readBack.evaluate glyph = expression.evaluate glyph := by
  induction expression using Expression.readBack.induct with
  | case1 op left right line leftHypothesis rightHypothesis =>
      simp only [readBack, evaluate, leftHypothesis, rightHypothesis]
  | case2 left right inner line leftHypothesis rightHypothesis =>
      simp only [readBack, evaluate, leftHypothesis, rightHypothesis]
      cases left.evaluate glyph with
      | error operand => rfl
      | ok first =>
          cases right.evaluate glyph with
          | error operand => rfl
          | ok second => simp [BinaryOp.apply, Except.map, Value.truth, Value.boolean?]
  | case3 operand line other inductionHypothesis =>
      rw [readBack_negation line other, evaluate, evaluate, inductionHypothesis]
  | case4 inner line inductionHypothesis => exact inductionHypothesis
  | case5 line => rfl
  | case6 value line => rfl

/-! ## Lines -/

theorem HasType.relocate {expression : Expression} {type : ValueType}
    (typed : HasType expression type) (places : Relocation) :
    HasType (expression.relocate places) type := by
  induction typed with
  | comparison plain _ _ leftHypothesis rightHypothesis =>
      exact .comparison plain leftHypothesis rightHypothesis
  | logical logical _ _ leftHypothesis rightHypothesis =>
      exact .logical logical leftHypothesis rightHypothesis
  | negation _ inductionHypothesis => exact .negation inductionHypothesis
  | nested _ inductionHypothesis => exact .nested inductionHypothesis
  | read => exact .read
  | literal => exact .literal

theorem HasType.of_relocate {places : Relocation} {expression : Expression} {type : ValueType}
    (typed : HasType (expression.relocate places) type) : HasType expression type := by
  induction expression generalizing type with
  | binary op left right line leftHypothesis rightHypothesis =>
      cases typed with
      | comparison plain leftType rightType =>
          exact .comparison plain (leftHypothesis leftType) (rightHypothesis rightType)
      | logical logical leftType rightType =>
          exact .logical logical (leftHypothesis leftType) (rightHypothesis rightType)
  | negation operand line inductionHypothesis =>
      cases typed with
      | negation operandType => exact .negation (inductionHypothesis operandType)
  | nested inner line inductionHypothesis =>
      cases typed with
      | nested innerType => exact .nested (inductionHypothesis innerType)
  | read line =>
      cases typed
      exact .read
  | literal value line =>
      cases typed
      exact .literal

@[simp] theorem Expression.evaluate_relocate (places : Relocation) (glyph : Char)
    (expression : Expression) :
    (expression.relocate places).evaluate glyph = expression.evaluate glyph := by
  induction expression <;> simp_all [relocate, evaluate]

/-! ## Values in range -/

/-- A number is none that a text cannot have. -/
def Value.InRange : Value → Prop
  | .number value => 0 ≤ value ∧ value ≤ Grammar.maxInteger
  | .character _ => True
  | .boolean _ => True

def Expression.InRange : Expression → Prop
  | .binary _ left right _ => left.InRange ∧ right.InRange
  | .negation operand _ => operand.InRange
  | .nested inner _ => inner.InRange
  | .read _ => True
  | .literal value _ => value.InRange

theorem Denotes.inRange {lexeme : Lexeme} {value : Value} (stands : Denotes lexeme value)
    (range : lexeme.InRange) : value.InRange := by
  cases stands with
  | character => trivial
  | integer kind => exact ⟨Int.natCast_nonneg _, Int.ofNat_le.mpr (range kind)⟩
  | yes => trivial
  | no => trivial

theorem ExpressionPhrase.inRange {tokens : List Lexeme} {expression : Expression}
    (phrase : ExpressionPhrase tokens expression) (range : AllInRange tokens) :
    expression.InRange := by
  induction phrase with
  | negation _ _ inductionHypothesis =>
      exact inductionHypothesis (allInRange_cons.mp range).2
  | binary _ _ _ leftHypothesis rightHypothesis =>
      obtain ⟨left, right⟩ := allInRange_append.mp (allInRange_cons.mp range).2
      exact ⟨leftHypothesis left, rightHypothesis right⟩
  | nested _ _ _ inductionHypothesis =>
      exact inductionHypothesis (allInRange_append.mp (allInRange_cons.mp range).2).1
  | read => trivial
  | literal stands => exact stands.inRange (allInRange_cons.mp range).1

theorem Expression.InRange.of_part {expression : Expression} (range : expression.InRange) :
    ∀ part ∈ expression.parts, part.InRange := by
  induction expression with
  | binary op left right line leftHypothesis rightHypothesis =>
      intro part member
      rcases List.mem_cons.mp member with rfl | inside
      · exact range
      · exact (List.mem_append.mp inside).elim (leftHypothesis range.1 part)
          (rightHypothesis range.2 part)
  | negation operand line inductionHypothesis | nested operand line inductionHypothesis =>
      intro part member
      rcases List.mem_cons.mp member with rfl | inside
      · exact range
      · exact inductionHypothesis range part inside
  | read line | literal value line =>
      intro part member
      rwa [List.mem_singleton.mp member]

theorem ConditionPhrase.inRange {tokens : List Lexeme} {test : Expression}
    (phrase : ConditionPhrase tokens test) (range : AllInRange tokens) : test.InRange := by
  obtain ⟨_, inner, _⟩ := phrase
  exact inner.inRange (allInRange_append.mp (allInRange_cons.mp range).2).1

mutual

/-- The expressions of a statement are in range if its tokens are. -/
theorem StatementPhrase.inRange {tokens : List Lexeme} {statement : Statement} :
    StatementPhrase tokens statement → AllInRange tokens →
    ∀ part ∈ statement.expressions, part.InRange
  | .empty _, _ => by simp [Statement.expressions]
  | .move _ operand _, range | .write _ operand _, range =>
      (operand.inRange (allInRange_append.mp (allInRange_cons.mp range).2).1).of_part
  | .goto _ _ _, _ => by simp [Statement.expressions]
  | .ifThen _ tests block, range | .whileLoop _ tests block, range => fun part member => by
      obtain ⟨condition, body⟩ := allInRange_append.mp (allInRange_cons.mp range).2
      exact (List.mem_append.mp member).elim ((tests.inRange condition).of_part part)
        (BlockPhrase.inRange block body part)
  | .ifElse _ tests thenBlock _ elseBlock, range => fun part member => by
      obtain ⟨condition, blocks⟩ := allInRange_append.mp (allInRange_cons.mp range).2
      obtain ⟨thenBody, others⟩ := allInRange_append.mp blocks
      exact (List.mem_append.mp member).elim ((tests.inRange condition).of_part part) fun either =>
        (List.mem_append.mp either).elim (BlockPhrase.inRange thenBlock thenBody part)
          (BlockPhrase.inRange elseBlock (allInRange_cons.mp others).2 part)
  | .halt _ _, _ => by simp [Statement.expressions]

theorem BlockPhrase.inRange {tokens : List Lexeme} {block : Block} :
    BlockPhrase tokens block → AllInRange tokens → ∀ part ∈ block.expressions, part.InRange
  | .mk _ phrases _, range =>
      StatementPhrase.allInRange phrases (allInRange_append.mp (allInRange_cons.mp range).2).1

theorem StatementPhrase.allInRange {tokens : List Lexeme} {statements : List Statement} :
    Phrases StatementPhrase tokens statements → AllInRange tokens →
    ∀ part ∈ Statement.expressionsOf statements, part.InRange
  | .nil, _ => by simp [Statement.expressionsOf]
  | .cons head tail, range => fun part member => by
      obtain ⟨first, others⟩ := allInRange_append.mp range
      exact (List.mem_append.mp member).elim (StatementPhrase.inRange head first part)
        (StatementPhrase.allInRange tail others part)

end

theorem ItemPhrase.inRange {tokens : List Lexeme} {item : Item} (phrase : ItemPhrase tokens item)
    (range : AllInRange tokens) : ∀ part ∈ item.expressions, part.InRange := by
  cases phrase with
  | label names follows block =>
      exact BlockPhrase.inRange block (allInRange_cons.mp (allInRange_cons.mp range).2).2
  | statement phrase => exact StatementPhrase.inRange phrase range

theorem ProgramPhrase.inRange {tokens : List Lexeme} {program : Program}
    (phrase : ProgramPhrase tokens program) (range : AllInRange tokens) :
    ∀ part ∈ program.expressions, part.InRange := by
  obtain ⟨items⟩ := program
  have phrases : Phrases ItemPhrase tokens items := phrase
  intro part member
  obtain ⟨item, present, inside⟩ := List.mem_flatMap.mp member
  clear phrase member
  induction phrases with
  | nil => contradiction
  | cons head _ inductionHypothesis =>
      obtain ⟨first, others⟩ := allInRange_append.mp range
      rcases List.mem_cons.mp present with rfl | present
      · exact head.inRange first part inside
      · exact inductionHypothesis others present

/-! ## Tokens of the text -/

/-- Nothing, a blank or a closing parenthesis: what stands behind the text of an operand. -/
def Delimits (rest : List Char) : Prop :=
  ∀ glyph, rest.head? = some glyph → glyph = ' ' ∨ glyph = ')'

/-- No token goes on with a blank or a closing parenthesis. -/
theorem Kind.Admits.complete_of_delimits {kind : Kind} {text rest : List Char}
    (admits : kind.Admits text) (delimits : Delimits rest) : kind.Complete text rest where
  word _ glyph begins := by
    rcases delimits glyph begins with rfl | rfl <;> decide
  digits _ glyph begins := by
    rcases delimits glyph begins with rfl | rfl <;> decide
  longest _ other longer spelling begins stands := by
    have unbroken : ∀ entry ∈ Kind.fixed,
        entry.2.tail.all (fun glyph => glyph != ' ' && glyph != ')') = true := by decide
    obtain ⟨first, others, rfl, -⟩ := Kind.begins_of_spells admits.spells
    obtain ⟨more, rfl⟩ := begins
    have follows : more <+: rest := (List.prefix_append_right_inj (first :: others)).mp stands
    cases more with
    | nil => exact List.append_nil _
    | cons glyph behind =>
        obtain ⟨end_, rfl⟩ := follows
        have solid := List.all_eq_true.mp (unbroken _ (Kind.mem_fixed_iff.mpr spelling)) glyph
          (by simp)
        rcases delimits glyph rfl with rfl | rfl <;> simp at solid
  distinct := admits.distinct

/-- A symbol is complete where no keyword stands that begins with it. -/
theorem Symbol.complete {sign : Symbol} {rest : List Char}
    (alone : ∀ word : Keyword, [sign.glyph] <+: word.spelling.toList →
      ¬ word.spelling.toList <+: [sign.glyph] ++ rest) :
    (Kind.symbol sign).Complete [sign.glyph] rest where
  word isWord := by contradiction
  digits integer := by contradiction
  longest _ other longer spelling begins stands := by
    cases other with
    | symbol other =>
        obtain rfl := Option.some.inj spelling
        obtain ⟨same, -⟩ := List.cons_prefix_cons.mp stands
        rw [same]
    | keyword word =>
        obtain rfl := Option.some.inj spelling
        exact absurd stands (alone word begins)
    | _ => contradiction
  distinct identifier := by contradiction

/-- A complete token in front of tokens. -/
theorem Tiled.spell {source : String} {before text rest : List Char} {kind : Kind}
    {lexemes : List Lexeme} {ending : Option LexError} (spells : kind.Spells text)
    (complete : kind.Complete text rest)
    (others : Tiled source (before ++ text) rest lexemes ending) :
    ∃ lexeme : Lexeme, lexeme.kind = kind ∧ lexeme.text.toList = text ∧
      Tiled source before (text ++ rest) (lexeme :: lexemes) ending := by
  have tiled := @Tiled.token source before [] text rest kind lexemes ending .nothing spells complete
    (by rwa [List.append_nil])
  exact ⟨_, rfl, String.toList_ofList, tiled⟩

/-- A blank in front of tokens is trivia. -/
theorem Tiled.indent {source : String} {before content : List Char} {lexemes : List Lexeme}
    {ending : Option LexError} (tiled : Tiled source (before ++ [' ']) content lexemes ending) :
    Tiled source before (' ' :: content) lexemes ending := by
  have blank : Text.isBlank ' ' = true := by decide
  cases tiled with
  | finished trivia => exact .finished (.blank blank trivia)
  | unmatched trivia unmatched =>
      have tiled := @Tiled.unmatched source before _ _ _ (.blank blank trivia) unmatched
      simpa using tiled
  | token trivia spells complete others =>
      have tiled := @Tiled.token source before _ _ _ _ _ _ (.blank blank trivia) spells complete
        (by simpa using others)
      simpa using tiled

/-! ## The text as a phrase -/

theorem BinaryOp.admits (op : BinaryOp) : op.kind.Admits op.symbol.toList := by
  cases op <;> exact ⟨rfl, by simp [BinaryOp.kind]⟩

def Value.kind : Value → Kind
  | .number _ => .integer
  | .character _ => .literal
  | .boolean true => .keyword .trueWord
  | .boolean false => .keyword .falseWord

theorem Value.admits {value : Value} (range : value.InRange) : value.kind.Admits value.text := by
  cases value with
  | number number =>
      obtain ⟨size, rfl⟩ := Int.eq_ofNat_of_zero_le range.1
      exact ⟨⟨Text.decimal_ne_nil size, Text.isDigit_of_mem_decimal size⟩, by simp [kind]⟩
  | character glyph => exact ⟨⟨glyph, rfl⟩, by simp [kind]⟩
  | boolean truth => cases truth <;> exact ⟨rfl, by simp [kind]⟩

/-- A token with the text of a value stands for this value. -/
theorem Value.denoted {value : Value} (range : value.InRange) {lexeme : Lexeme}
    (kind : lexeme.kind = value.kind) (text : lexeme.text.toList = value.text) :
    Denotes lexeme value ∧ lexeme.InRange := by
  cases value with
  | number number =>
      obtain ⟨size, rfl⟩ := Int.eq_ofNat_of_zero_le range.1
      have denoted : Text.decimalValue lexeme.text.toList = size := by
        rw [text]
        exact Text.decimalValue_decimal size
      have stands := Denotes.integer kind
      rw [denoted] at stands
      exact ⟨stands, fun _ => denoted ▸ Int.ofNat_le.mp range.2⟩
  | character glyph =>
      exact ⟨.character kind text, Lexeme.inRange_of_kind kind (by simp [Value.kind])⟩
  | boolean truth =>
      cases truth with
      | true => exact ⟨.yes kind, Lexeme.inRange_of_kind kind (by simp [Value.kind])⟩
      | false => exact ⟨.no kind, Lexeme.inRange_of_kind kind (by simp [Value.kind])⟩

/-- Only the text of an equation begins with an equals sign. -/
theorem Expression.head_text (expression : Expression)
    (other : ∀ left right line, expression = .binary .equal left right line → False) :
    expression.text.head? ≠ some '=' := by
  cases expression with
  | binary op left right line =>
      cases op with
      | equal => exact (other left right line rfl).elim
      | _ => simp [text, BinaryOp.symbol]
  | negation => simp [text]
  | nested => simp [text]
  | read => simp [text]
  | literal value line =>
      cases value with
      | number number =>
          cases number with
          | ofNat size =>
              intro begins
              have digit := Text.isDigit_of_mem_decimal size '=' (List.mem_of_head? begins)
              contradiction
          | negSucc size => simp [text, Value.text, Text.integer]
      | character glyph => simp [text, Value.text]
      | boolean truth => cases truth <;> simp [text, Value.text]

/-- Wherever a text stands with a delimiter behind it, its tokens are, lines apart, a phrase of a
tree. -/
def ReadsAs (text : List Char) (tree : Expression) : Prop :=
  ∀ (source : String) (before rest : List Char) (lexemes : List Lexeme) (ending : Option LexError),
    Delimits rest → Tiled source (before ++ text) rest lexemes ending →
      ∃ tokens found, Tiled source before (text ++ rest) (tokens ++ lexemes) ending ∧
        ExpressionPhrase tokens found ∧ AllInRange tokens ∧
        found.relocate .oneLine = tree.relocate .oneLine

namespace ReadsAs

variable {text first second : List Char} {tree left right : Expression}

theorem binary (op : BinaryOp) (leftReads : ReadsAs first left) (rightReads : ReadsAs second right)
    (line : Nat) :
    ReadsAs (op.symbol.toList ++ ' ' :: (first ++ ' ' :: second)) (.binary op left right line) := by
  intro source before rest lexemes ending delimits others
  have blank : ∀ content, Delimits (' ' :: content) := by simp [Delimits]
  obtain ⟨behind, rightTree, rightTiled, rightPhrase, rightRange, rightSame⟩ :=
    rightReads source (before ++ op.symbol.toList ++ [' '] ++ first ++ [' ']) rest lexemes ending
      delimits (by simpa using others)
  obtain ⟨front, leftTree, leftTiled, leftPhrase, leftRange, leftSame⟩ :=
    leftReads source _ _ _ ending (blank _) rightTiled.indent
  obtain ⟨sign, kind, -, tiled⟩ := Tiled.spell op.admits.spells
    (op.admits.complete_of_delimits (blank _)) leftTiled.indent
  have signRange : sign.InRange := Lexeme.inRange_of_kind kind (by cases op <;> decide)
  refine ⟨sign :: (front ++ behind), _, ?_, .binary kind leftPhrase rightPhrase, ?_, ?_⟩
  · simpa using tiled
  · simp [signRange, leftRange, rightRange]
  · simp only [Expression.relocate, leftSame, rightSame]
    rfl

theorem negation (apart : text.head? ≠ some '=') (reads : ReadsAs text tree) (line : Nat) :
    ReadsAs ('!' :: text) (.negation tree line) := by
  intro source before rest lexemes ending delimits others
  obtain ⟨tokens, found, inner, phrase, range, same⟩ :=
    reads source (before ++ ['!']) rest lexemes ending delimits (by simpa using others)
  have noEqual : (text ++ rest).head? ≠ some '=' := by
    cases text with
    | nil =>
        intro begins
        rcases delimits '=' begins with same | same <;> contradiction
    | cons glyph others => exact apart
  have alone : ∀ word : Keyword, ['!'] <+: word.spelling.toList →
      ¬ word.spelling.toList <+: ['!'] ++ (text ++ rest) := by
    intro word begins stands
    obtain rfl : word = .notEqual := by
      cases word <;> first | rfl | exact absurd begins (by decide)
    obtain ⟨behind, split⟩ := (List.prefix_append_right_inj ['!']).mp stands
    exact noEqual (by rw [← split]; rfl)
  obtain ⟨sign, kind, -, tiled⟩ := @Tiled.spell source before ['!'] _ (.symbol .bang) _ _ rfl
    (Symbol.complete alone) inner
  refine ⟨sign :: tokens, _, tiled, .negation kind phrase, ?_, ?_⟩
  · simp [range, Lexeme.inRange_of_kind kind]
  · simp only [Expression.relocate, same]
    rfl

theorem nested (reads : ReadsAs text tree) (line : Nat) :
    ReadsAs ('(' :: (text ++ [')'])) (.nested tree line) := by
  intro source before rest lexemes ending delimits others
  have closes : (Kind.symbol .closeParen).Complete [')'] rest :=
    Symbol.complete fun word begins => absurd begins (by cases word <;> decide)
  have opens : (Kind.symbol .openParen).Complete ['('] (text ++ ')' :: rest) :=
    Symbol.complete fun word begins => absurd begins (by cases word <;> decide)
  obtain ⟨closing, ends, -, behind⟩ := @Tiled.spell source (before ++ ['('] ++ text) [')'] rest
    (.symbol .closeParen) lexemes ending rfl closes (by simpa using others)
  obtain ⟨tokens, found, inner, phrase, range, same⟩ :=
    reads source (before ++ ['(']) (')' :: rest) _ ending (by simp [Delimits]) behind
  obtain ⟨opening, begins, -, tiled⟩ := @Tiled.spell source before ['('] _ (.symbol .openParen) _ _
    rfl opens inner
  refine ⟨opening :: (tokens ++ [closing]), _, ?_, .nested begins phrase ends, ?_, ?_⟩
  · simpa using tiled
  · simp [range, Lexeme.inRange_of_kind begins, Lexeme.inRange_of_kind ends]
  · simp only [Expression.relocate, same]
    rfl

theorem read (line : Nat) : ReadsAs "read".toList (.read line) := by
  intro source before rest lexemes ending delimits others
  have admits : Kind.Admits (.keyword .readWord) "read".toList := ⟨rfl, by simp⟩
  obtain ⟨sign, kind, -, tiled⟩ := Tiled.spell admits.spells (admits.complete_of_delimits delimits)
    others
  exact ⟨[sign], _, tiled, .read (by simp [readKinds, kind]),
    by simp [Lexeme.inRange_of_kind kind], rfl⟩

theorem literal {value : Value} (range : value.InRange) (line : Nat) :
    ReadsAs value.text (.literal value line) := by
  intro source before rest lexemes ending delimits others
  have admits := Value.admits range
  obtain ⟨lexeme, kind, text, tiled⟩ := Tiled.spell admits.spells
    (admits.complete_of_delimits delimits) others
  obtain ⟨stands, within⟩ := Value.denoted range kind text
  exact ⟨[lexeme], _, tiled, .literal stands, by simp [within], rfl⟩

end ReadsAs

/-- The text of an expression is read as the tree that its text has. -/
theorem Expression.reads {expression : Expression} (range : expression.InRange) :
    ReadsAs expression.text expression.readBack := by
  induction expression using Expression.readBack.induct with
  | case1 op left right line leftHypothesis rightHypothesis =>
      exact .binary op (leftHypothesis range.1) (rightHypothesis range.2) line
  | case2 left right inner line leftHypothesis rightHypothesis =>
      exact .binary .notEqual (leftHypothesis range.1) (rightHypothesis range.2) line
  | case3 operand line other inductionHypothesis =>
      rw [readBack_negation line other]
      exact .negation (operand.head_text other) (inductionHypothesis range) line
  | case4 inner line inductionHypothesis => exact .nested (inductionHypothesis range) line
  | case5 line => exact .read line
  | case6 value line => exact .literal range line

end TapeMachine
