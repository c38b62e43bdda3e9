import TapeMachine.Proofs.Grammar.Language
import TapeMachine.Proofs.Grammar.Relocation
import TapeMachine.Proofs.Syntax.Size
import TapeMachine.Proofs.Token.Cursor

/-!
Contract: a production leaves no trace or makes progress, and so parsing comes to an end.

Owns: the productions of the grammar, what each of them does to a parser in whatever state, and
the bounds that the number of tokens sets to levels, repetitions and the tree.

Does not own: that further rounds make no difference to a production; `Proofs.Grammar.Relocation`
does.
-/

namespace TapeMachine

open Grammar

variable {α : Type}

/-! ## No trace or progress -/

/-- From some tokens to others behind at least one more. -/
def Consumes (ahead behind : List Lexeme) : Prop :=
  ∃ used, used ≠ [] ∧ ahead = used ++ behind

/-- A step that yields nothing leaves the tokens and the visible labels as they were. One that
yields something has used up a token, and the scopes of labels are as deep as before. Whichever way
it ends, the marks stand where they stood. -/
def Tidy (step : Parse (Option α)) : Prop :=
  ∀ parser : Parser, parser.lexer.Steady →
    let behind := stateOf (step parser)
    behind.lexer.Steady ∧
      behind.lexer.depth = parser.lexer.depth ∧
      behind.lexer.outlook.marked = parser.lexer.outlook.marked ∧
      match resultOf (step parser) with
      | .ok none =>
          behind.lexer.outlook = parser.lexer.outlook ∧ behind.labels = parser.labels
      | .ok (some _) =>
          Consumes parser.lexer.outlook.ahead behind.lexer.outlook.ahead ∧
            behind.labels.depth = parser.labels.depth
      | .error _ => True

/-- The same between the places in front of a step and behind it. -/
def Advances (step : Parse (Option α)) : Prop :=
  ∀ ending place, Ensures ending step place fun result behind =>
    match result with
    | none => behind = place
    | some _ =>
        Consumes place.ahead behind.ahead ∧ behind.labels.depth = place.labels.depth

namespace Lexer

theorem depth_eq (lexer : Lexer) : lexer.depth = lexer.outlook.marked.length :=
  (List.length_map lexer.tokensFrom).symm

/-- The lexer behind requests that are made one after the other. -/
def after (lexer : Lexer) (requests : List LexerRequest) : Lexer :=
  requests.foldl (fun lexer request => (lexer.respond request).2) lexer

theorem Steady.after {lexer : Lexer} (steady : lexer.Steady) (requests : List LexerRequest) :
    (lexer.after requests).Steady := by
  induction requests generalizing lexer with
  | nil => exact steady
  | cons request others inductionHypothesis =>
      exact inductionHypothesis (respond_spec steady request).2.1

end Lexer

theorem Advances.tidy {step : Parse (Option α)} (advances : Advances step) : Tidy step := by
  intro parser steady
  obtain ⟨behind, stands, ensured⟩ :=
    advances parser.lexer.outlook.ending ⟨parser.lexer.outlook.ahead, parser.labels⟩ parser
      parser.lexer.outlook.marked ⟨steady, rfl, rfl⟩
  have outlook := stands.outlook
  refine ⟨stands.steady, ?_, by rw [outlook], ?_⟩
  · rw [Lexer.depth_eq, Lexer.depth_eq, outlook]
  · cases result : resultOf (step parser) with
    | error error => trivial
    | ok found =>
        rw [result] at ensured
        cases found with
        | none =>
            obtain rfl : behind = _ := ensured
            exact ⟨outlook, stands.labels⟩
        | some tree =>
            rw [outlook, stands.labels]
            exact ensured

/-- What finds phrases that are not empty advances. -/
theorem Finds.advances {step : Parse (Option α)}
    {phrase : Environment (Option Block) → List Lexeme → α → Prop}
    (finds : ∀ ending, Finds ending step phrase)
    (nonempty : ∀ labels tokens tree, phrase labels tokens tree → tokens ≠ []) :
    Advances step := by
  intro ending place
  refine (finds ending place).mono ?_
  intro result behind found
  cases result with
  | none => exact found
  | some tree =>
      rcases found with ⟨tokens, split, labels, phrases⟩
      exact ⟨⟨tokens, nonempty _ _ _ phrases, split⟩, congrArg Environment.depth labels⟩

/-! ## The productions -/

theorem Environment.depth_define {β : Type} (environment : Environment β) (name : String)
    (value : β) : (environment.define name value).depth = environment.depth := by
  unfold define depth
  cases environment.nested <;> rfl

theorem Item.depth_declare (labels : Environment (Option Block)) (item : Item) :
    (item.declare labels).depth = labels.depth := by
  cases item with
  | statement entry => rfl
  | label definition => rw [declare, Environment.depth_define, Environment.depth_define]

namespace Grammar

theorem advances_expressionPhrase {step : Parse (Option Expression)}
    (finds : ∀ ending, Finds ending step fun _ => AdmittedExpression) : Advances step :=
  Finds.advances finds fun _ _ _ admitted => admitted.phrase.ne_nil

theorem advances_statementPhrase {step : Parse (Option Statement)}
    (finds : ∀ ending, Finds ending step AdmittedStatement) : Advances step :=
  Finds.advances finds fun _ _ _ admitted => admitted.phrase.ne_nil

theorem advances_labelDefinition {block : Parse (Option Block)}
    (finds : ∀ ending, Finds ending block AdmittedBlock) : Advances (labelDefinition block) := by
  intro ending place
  refine (ensures_labelDefinition (finds ending) place).mono ?_
  intro result behind found
  cases result with
  | none => exact found
  | some definition =>
      rcases found with ⟨tokens, split, labels, phrase, -⟩
      exact ⟨⟨tokens, phrase.ne_nil, split⟩, labels ▸ Item.depth_declare _ _⟩

/-- The productions of the grammar, with any numbers of levels and repetitions. -/
inductive IsProduction : {α : Type} → Parse (Option α) → Prop where
  | labelDefinition (limit levels : Nat) :
      IsProduction (labelDefinition (block (statement limit levels) limit))
  | block (limit levels : Nat) : IsProduction (block (statement limit levels) limit)
  | elseBranch (limit levels : Nat) :
      IsProduction (elseBranch (block (statement limit levels) limit))
  | statement (limit levels : Nat) : IsProduction (statement limit levels)
  | emptyStatement : IsProduction emptyStatement
  | moveStatement (levels : Nat) : IsProduction (moveStatement (expression levels))
  | writeStatement (levels : Nat) : IsProduction (writeStatement (expression levels))
  | gotoStatement : IsProduction gotoStatement
  | ifStatement (limit levels : Nat) :
      IsProduction (ifStatement (expression limit) (block (statement limit levels) limit))
  | whileStatement (limit levels : Nat) :
      IsProduction (whileStatement (expression limit) (block (statement limit levels) limit))
  | haltStatement : IsProduction haltStatement
  | expression (levels : Nat) : IsProduction (expression levels)
  | negation (levels : Nat) : IsProduction (negation (expression levels))
  | binary (levels : Nat) : IsProduction (binary (expression levels))
  | nested (levels : Nat) : IsProduction (nested (expression levels))
  | readGlyph : IsProduction readGlyph
  | literal : IsProduction literal

theorem IsProduction.advances {step : Parse (Option α)} (production : IsProduction step) :
    Advances step := by
  have blocks (limit levels : Nat) (ending : Option LexError) :
      Finds ending (Grammar.block (Grammar.statement limit levels) limit) AdmittedBlock :=
    finds_block (finds_statement limit levels) limit
  cases production with
  | labelDefinition limit levels => exact advances_labelDefinition (blocks limit levels)
  | block limit levels =>
      exact Finds.advances (blocks limit levels) fun _ _ _ admitted => admitted.phrase.ne_nil
  | elseBranch limit levels =>
      refine Finds.advances (fun ending => finds_elseBranch (blocks limit levels ending)) ?_
      intro labels tokens body found
      rcases found with ⟨other, others, rfl, -⟩
      exact List.cons_ne_nil _ _
  | statement limit levels => exact advances_statementPhrase fun _ => finds_statement limit levels
  | emptyStatement => exact advances_statementPhrase fun _ => finds_emptyStatement
  | moveStatement levels =>
      exact advances_statementPhrase fun _ => finds_moveStatement (finds_expression levels)
  | writeStatement levels =>
      exact advances_statementPhrase fun _ => finds_writeStatement (finds_expression levels)
  | gotoStatement => exact advances_statementPhrase fun _ => finds_gotoStatement
  | ifStatement limit levels =>
      exact advances_statementPhrase fun ending =>
        finds_ifStatement (finds_expression limit) (blocks limit levels ending)
  | whileStatement limit levels =>
      exact advances_statementPhrase fun ending =>
        finds_whileStatement (finds_expression limit) (blocks limit levels ending)
  | haltStatement => exact advances_statementPhrase fun _ => finds_haltStatement
  | expression levels => exact advances_expressionPhrase fun _ => finds_expression levels
  | negation levels =>
      exact advances_expressionPhrase fun _ => finds_negation (finds_expression levels)
  | binary levels =>
      exact advances_expressionPhrase fun _ => finds_binary (finds_expression levels)
  | nested levels =>
      exact advances_expressionPhrase fun _ => finds_nested (finds_expression levels)
  | readGlyph => exact advances_expressionPhrase fun _ => finds_readGlyph
  | literal => exact advances_expressionPhrase fun _ => finds_literal

end Grammar

/-! ## The end of parsing -/

/-- Everything stays where it is. -/
def Relocation.inPlace : Relocation :=
  ⟨id, id⟩

theorem relocate_inPlace (result : Except ParseError Program) :
    Relocatable.relocate .inPlace result = result := by
  cases result with
  | error error => rfl
  | ok program => exact congrArg Except.ok (program.relocate_of_keepsLines fun _ => rfl)

namespace Buffer

/-- The tokens of the input up to its end or to the first error. -/
def tokens (buffer : Buffer) : List Lexeme :=
  (Lexer.ofBuffer buffer).tokenize.1

theorem tokens_eq {buffer : Buffer} (sound : buffer.Sound) :
    buffer.tokens = buffer.passage.lex.1 := by
  rw [tokens, (Lexer.tokenize_spec (Lexer.steady_ofBuffer sound)).1, Lexer.outlook_ofBuffer]

/-- Neither the number of rounds, if it exceeds the tokens, nor the further ones make a
difference. -/
theorem parse_eq_above {buffer : Buffer} (sound : buffer.Sound) {limit : Nat}
    (enough : buffer.tokens.length < limit) (further : Further) :
    buffer.parse.1 = resultOf (programAbove further limit (Parser.ofBuffer buffer)) := by
  rw [tokens_eq sound] at enough
  have start := Parser.at_ofBuffer sound
  have lexemes : buffer.passage.lex.1.map (Lexeme.relocate .inPlace) = buffer.passage.lex.1 :=
    List.map_id _
  have ending : buffer.passage.lex.2.map (LexError.relocate .inPlace) = buffer.passage.lex.2 :=
    Option.map_id'
  have same := @programAbove_relocate .inPlace _ _ (Parser.ofBuffer buffer) _ _ _ .nothing further
    start (by rw [lexemes, ending]; exact start) (length_lex_lt_limit buffer) enough
  rw [same, relocate_inPlace, parse_eq, program_eq_above]

/-- Every statement and every expression of a program has a token of its own. -/
theorem length_parts_le_of_parse {buffer : Buffer} (sound : buffer.Sound) {program : Program}
    (parsed : buffer.parse.1 = .ok program) :
    program.parts.length + program.expressions.length ≤ buffer.tokens.length := by
  obtain ⟨behind, -, ensured⟩ := Grammar.ensures_program
    (Parser.ofBuffer buffer).limit _ _ _ (Parser.at_ofBuffer sound)
  rw [← parse_eq, parsed] at ensured
  rcases ensured with ⟨-, -, admitted⟩
  rw [tokens_eq sound]
  exact ProgramPhrase.length_parts_le admitted.phrases

end Buffer

/-- Every production leaves no trace or makes progress, whatever was asked of the lexer and its
buffer before and whatever labels are visible. So the parsing of every input comes to an end: it
never goes through more rounds of a recursion or a loop than there are tokens and one more, as
further rounds, whatever they would do, make no difference. The tree has no more statements and
expressions than there are tokens. -/
theorem production_leaves_no_trace_or_advances :
    (∀ start : Buffer, start.Fresh → ∀ history requests,
        ((Lexer.ofBuffer (start.after history)).after requests).Steady) ∧
      (∀ (α : Type) (step : Parse (Option α)), IsProduction step → Tidy step) ∧
      ∀ buffer : Buffer, buffer.Fresh →
        (∀ limit, buffer.tokens.length < limit → ∀ further : Further,
          resultOf (programAbove further limit (Parser.ofBuffer buffer)) = buffer.parse.1) ∧
        ∀ program, buffer.parse.1 = .ok program →
          program.parts.length + program.expressions.length ≤ buffer.tokens.length := by
  refine ⟨?states, fun α step production => production.advances.tidy, ?inputs⟩
  case states =>
    intro start fresh history requests
    exact (Lexer.steady_ofBuffer (fresh.plain.sound.after history)).after requests
  case inputs =>
    intro buffer fresh
    have sound := fresh.plain.sound
    refine ⟨?_, fun program parsed => Buffer.length_parts_le_of_parse sound parsed⟩
    intro limit enough further
    exact (Buffer.parse_eq_above sound enough further).symm

def oneWrite : Buffer :=
  .ofText "write 'a';".toList

/-- Behind the first token, under two marks. -/
def insideWrite : Parser :=
  ⟨(Lexer.ofBuffer (oneWrite.after [])).after [.openMark, .next, .openMark], .empty⟩

/-- Every further round fails. -/
def Grammar.Further.failing : Further :=
  let error := ParseError.atLexeme ⟨.identifier, "further", 0, "further"⟩ .unexpectedToken
  ⟨throw error, throw error, throw error, throw error⟩

/-- Behind `write` no block begins, but an expression does, and four rounds are enough for three
tokens. -/
theorem production_leaves_no_trace_or_advances_oneWrite :
    insideWrite.lexer.Steady ∧ insideWrite.lexer.depth = 2 ∧
      (stateOf (block (statement 3 3) 3 insideWrite)).lexer.outlook =
        insideWrite.lexer.outlook ∧
      (stateOf (expression 3 insideWrite)).lexer.depth = 2 ∧
      oneWrite.tokens.length = 3 ∧
      resultOf (programAbove .failing 4 (Parser.ofBuffer oneWrite)) = oneWrite.parse.1 ∧
      ∃ program, oneWrite.parse.1 = .ok program ∧
        program.parts.length + program.expressions.length ≤ 3 := by
  obtain ⟨states, productions, inputs⟩ := production_leaves_no_trace_or_advances
  have fresh : oneWrite.Fresh := .ofText _
  have steady : insideWrite.lexer.Steady := states oneWrite fresh [] _
  have depth : insideWrite.lexer.depth = 2 := by decide +kernel
  have blocks := productions Block (block (statement 3 3) 3) (.block 3 3) insideWrite steady
  have expressions := productions Expression (expression 3) (.expression 3) insideWrite steady
  have tokens : oneWrite.tokens.length = 3 := by decide +kernel
  have enough : oneWrite.tokens.length < 4 := by rw [tokens]; decide
  have nothing : (resultOf (block (statement 3 3) 3 insideWrite)).toOption.map Option.isNone =
    some true := by decide +kernel
  have accepted : oneWrite.parse.1.isOk = true := by decide +kernel
  obtain ⟨ends, small⟩ := inputs oneWrite fresh
  refine ⟨steady, depth, ?_, expressions.2.1.trans depth, tokens, ends 4 enough .failing, ?_⟩
  · cases result : resultOf (block (statement 3 3) 3 insideWrite) with
    | error error => simp [result, Except.toOption] at nothing
    | ok found =>
        cases found with
        | some body => simp [result, Except.toOption] at nothing
        | none =>
            simp only [result] at blocks
            exact blocks.2.2.2.1
  · cases parsed : oneWrite.parse.1 with
    | error error => simp [parsed, Except.isOk, Except.toBool] at accepted
    | ok program => exact ⟨program, rfl, tokens ▸ small program parsed⟩

end TapeMachine
