import TapeMachine.Grammar.Program
import TapeMachine.Proofs.Grammar.Production
import TapeMachine.Proofs.Grammar.Terminal
import TapeMachine.Proofs.Names.Scope

/-!
Contract: a production follows every phrase of the grammar.

Owns: total correctness of steps up to checks that fail, and for each production that, in front of
the tokens of a phrase, it yields the tree of this phrase and no other, unless the phrase does not
pass the checks.

Does not own: that only phrases are found; `Proofs.Grammar.Soundness` does.

The number of levels and of repetitions only has to reach the number of tokens.
-/

namespace TapeMachine

/-! ## Steps that follow a phrase -/

/-- A step yields one certain value and ends at one certain place, or it ends with an error and
the checks do not hold. -/
def Follows {α : Type} (step : Parse α) (place : Place) (checks : Prop) (value : α)
    (behind : Place) : Prop :=
  Meets none step place fun result final =>
    match result with
    | .ok found => found = value ∧ final = behind
    | .error _ => ¬ checks

namespace Follows

open Grammar

variable {α β : Type} {place middle behind : Place} {checks early : Prop}
  {labels : Environment (Option Block)} {sign : Lexeme} {others : List Lexeme}

theorem pure {value : α} : Follows (Pure.pure value) place checks value place :=
  Meets.pure ⟨rfl, rfl⟩

theorem bind {step : Parse α} {next : α → Parse β} {value : α} {result : β}
    (first : Follows step place early value middle) (implied : checks → early)
    (second : Follows (next value) middle checks result behind) :
    Follows (step >>= next) place checks result behind := by
  refine Meets.bind (Meets.mono first ?_)
  intro found final met
  cases found with
  | error error => exact fun holds => met (implied holds)
  | ok found =>
      rcases met with ⟨rfl, rfl⟩
      exact second

theorem expect {kind : Kind} {earlier : Lexeme} {part : Missing} (wanted : sign.kind = kind) :
    Follows (Grammar.expect kind earlier part) ⟨sign :: others, labels⟩ checks sign
      ⟨others, labels⟩ := by
  refine Meets.bind (Meets.nextLexeme ?_ ?_ ?_)
  · intro lexeme rest ahead
    obtain ⟨rfl, rfl⟩ := List.cons.inj ahead
    simp only [wanted, ↓reduceIte]
    exact pure
  · simp
  · simp

theorem require {step : Parse (Option α)} {earlier : Lexeme} {part : Missing} {value : α}
    (follows : Follows step place checks (some value) behind) :
    Follows (Grammar.require step earlier part) place checks value behind :=
  bind follows id pure

theorem checkType {found wanted : ValueType} {lexeme : Lexeme} {mismatch : TypeMismatch} :
    Follows (Grammar.checkType found wanted lexeme mismatch) place (found = wanted) () place := by
  unfold Grammar.checkType
  split
  · exact pure
  · rename_i different
    exact Meets.fail different

theorem modifyLabels {change : Environment (Option Block) → Environment (Option Block)} :
    Follows (Grammar.modifyLabels change) place checks () ⟨place.ahead, change place.labels⟩ :=
  Meets.modifyLabels ⟨rfl, rfl⟩

/-! ## Choices -/

theorem production {select : Kind → Option β} {body : Lexeme → β → Parse α} {choice : β}
    {value : α} (selected : select sign.kind = some choice)
    (follows : Follows (body sign choice) ⟨others, labels⟩ checks value behind) :
    Follows (Grammar.production select body) ⟨sign :: others, labels⟩ checks (some value)
      behind := by
  refine Meets.production ?_ ?_ ?_
  · intro lexeme rest other ahead found
    obtain ⟨rfl, rfl⟩ := List.cons.inj ahead
    obtain rfl := Option.some.inj (selected.symm.trans found)
    apply Meets.mono follows
    intro result final met
    cases result with
    | ok found => exact ⟨congrArg some met.1, met.2⟩
    | error error => exact met
  · intro refused
    rw [refused sign others rfl] at selected
    contradiction
  · simp

/-- A production is not interested in other tokens, nor in the end of the input. -/
theorem refuse {select : Kind → Option β} {body : Lexeme → β → Parse α}
    (refused : ∀ lexeme ∈ place.ahead.head?, select lexeme.kind = none) :
    Follows (Grammar.production select body) place checks none place := by
  refine Meets.production ?_ (fun _ => ⟨rfl, rfl⟩) ?_
  · intro lexeme rest choice ahead selected
    rw [refused lexeme (by simp [ahead])] at selected
    contradiction
  · simp

theorem firstOf_nil :
    Follows (firstOf ([] : List (Parse (Option α)))) place checks none place :=
  pure

theorem take {alternative : Parse (Option α)} {alternatives : List (Parse (Option α))} {value : α}
    (follows : Follows alternative place checks (some value) behind) :
    Follows (firstOf (alternative :: alternatives)) place checks (some value) behind :=
  bind follows id pure

theorem skip {alternative : Parse (Option α)} {alternatives : List (Parse (Option α))}
    {result : Option α} (refuses : Follows alternative place checks none place)
    (follows : Follows (firstOf alternatives) place checks result behind) :
    Follows (firstOf (alternative :: alternatives)) place checks result behind :=
  bind refuses id follows

/-- Passes over a production that another token begins. -/
theorem pass {select : Kind → Option β} {body : Lexeme → β → Parse α}
    {alternatives : List (Parse (Option α))} {result : Option α}
    (refused : select sign.kind = none)
    (follows : Follows (firstOf alternatives) ⟨sign :: others, labels⟩ checks result behind) :
    Follows (firstOf (Grammar.production select body :: alternatives)) ⟨sign :: others, labels⟩
      checks result behind :=
  skip (refuse (by simpa using refused)) follows

end Follows

/-! ## Expressions -/

/-- The text of an integer token is a row of digits. -/
def Lexeme.Spelled (lexeme : Lexeme) : Prop :=
  lexeme.kind = .integer → lexeme.text.toList ≠ [] ∧ lexeme.text.toList.all Char.isDigit = true

/-- The checks that the tokens of an expression and its tree have to pass. -/
structure CheckedExpression (tokens : List Lexeme) (tree : Expression) : Prop where
  typed : HasType tree tree.type
  range : AllInRange tokens

namespace Grammar

variable {labels : Environment (Option Block)} {others : List Lexeme}

theorem follows_negation {operand : Parse (Option Expression)} {sign : Lexeme}
    {tokens : List Lexeme} {tree : Expression} (begins : sign.kind = .symbol .bang)
    (follows : Follows operand ⟨tokens ++ others, labels⟩ (CheckedExpression tokens tree)
      (some tree) ⟨others, labels⟩) :
    Follows (negation operand) ⟨sign :: (tokens ++ others), labels⟩
      (CheckedExpression (sign :: tokens) (.negation tree sign.line))
      (some (.negation tree sign.line)) ⟨others, labels⟩ := by
  have inner (checked : CheckedExpression (sign :: tokens) (.negation tree sign.line)) :
      HasType tree .boolean ∧ CheckedExpression tokens tree := by
    cases checked.typed with
    | negation typed =>
        exact ⟨typed, typed.type_eq ▸ typed, (allInRange_cons.mp checked.range).2⟩
  refine .production (only_of_kind begins) ?_
  refine .bind (.require follows) (fun checked => (inner checked).2) ?_
  exact .bind .checkType (fun checked => (inner checked).1.type_eq) .pure

theorem follows_binary {operand : Parse (Option Expression)} {sign : Lexeme} {op : BinaryOp}
    {first second : List Lexeme} {left right : Expression} (begins : sign.kind = op.kind)
    (followsLeft : Follows operand ⟨first ++ (second ++ others), labels⟩
      (CheckedExpression first left) (some left) ⟨second ++ others, labels⟩)
    (followsRight : Follows operand ⟨second ++ others, labels⟩
      (CheckedExpression second right) (some right) ⟨others, labels⟩) :
    Follows (binary operand) ⟨sign :: (first ++ (second ++ others)), labels⟩
      (CheckedExpression (sign :: (first ++ second)) (.binary op left right sign.line))
      (some (.binary op left right sign.line)) ⟨others, labels⟩ := by
  have inner (checked : CheckedExpression (sign :: (first ++ second))
      (.binary op left right sign.line)) :
      CheckedExpression first left ∧ CheckedExpression second right ∧ left.type = right.type ∧
        (op.isLogical = true → left.type = .boolean) := by
    have range := allInRange_append.mp (allInRange_cons.mp checked.range).2
    cases checked.typed with
    | comparison plain leftType rightType =>
        have leftEq := leftType.type_eq
        have rightEq := rightType.type_eq
        exact ⟨⟨leftEq ▸ leftType, range.1⟩, ⟨rightEq ▸ rightType, range.2⟩,
          leftEq.trans rightEq.symm, fun logical => by simp [plain] at logical⟩
    | logical logical leftType rightType =>
        have leftEq := leftType.type_eq
        have rightEq := rightType.type_eq
        exact ⟨⟨leftEq ▸ leftType, range.1⟩, ⟨rightEq ▸ rightType, range.2⟩,
          leftEq.trans rightEq.symm, fun _ => leftEq⟩
  refine .production (binaryOperator_eq_some.mpr begins) ?_
  refine .bind (.require followsLeft) (fun checked => (inner checked).1) ?_
  refine .bind (.require followsRight) (fun checked => (inner checked).2.1) ?_
  refine .bind .checkType (fun checked => (inner checked).2.2.1) ?_
  cases isLogical : op.isLogical with
  | false =>
      simp only [Bool.false_eq_true, ↓reduceIte]
      exact .pure
  | true =>
      simp only [↓reduceIte]
      exact .bind .checkType (fun checked => (inner checked).2.2.2 isLogical) .pure

theorem follows_nested {inside : Parse (Option Expression)} {opening closing : Lexeme}
    {tokens : List Lexeme} {tree : Expression} (begins : opening.kind = .symbol .openParen)
    (ends : closing.kind = .symbol .closeParen)
    (follows : Follows inside ⟨tokens ++ closing :: others, labels⟩
      (CheckedExpression tokens tree) (some tree) ⟨closing :: others, labels⟩) :
    Follows (nested inside) ⟨opening :: (tokens ++ closing :: others), labels⟩
      (CheckedExpression (opening :: (tokens ++ [closing])) (.nested tree opening.line))
      (some (.nested tree opening.line)) ⟨others, labels⟩ := by
  refine .production (only_of_kind begins) ?_
  refine .bind (.require follows) ?_ (.bind (.expect ends) id .pure)
  intro checked
  have range := allInRange_append.mp (allInRange_cons.mp checked.range).2
  cases checked.typed with
  | nested typed => exact ⟨typed.type_eq ▸ typed, range.1⟩

theorem follows_readGlyph {sign : Lexeme} {checks : Prop} (begins : sign.kind ∈ readKinds) :
    Follows readGlyph ⟨sign :: others, labels⟩ checks (some (.read sign.line))
      ⟨others, labels⟩ :=
  .production (show readSign sign.kind = some () from readSign_eq_some.mpr begins) .pure

theorem follows_literal {lexeme : Lexeme} {value : Value} (stands : Denotes lexeme value)
    (spelled : lexeme.Spelled) :
    Follows literal ⟨lexeme :: others, labels⟩
      (CheckedExpression [lexeme] (.literal value lexeme.line))
      (some (.literal value lexeme.line)) ⟨others, labels⟩ := by
  obtain ⟨sort, kind, read⟩ := literalValue_of_denotes stands spelled
  refine .production (literalKind_eq_some.mpr kind) ?_
  rcases read with found | ⟨⟨cause, refused⟩, outOfRange⟩
  · simp only [found]
    exact .pure
  · simp only [refused]
    apply Meets.fail
    intro checked
    exact outOfRange (checked.range lexeme (by simp))

/-- In front of an expression, the expression is found at enough levels. -/
theorem follows_expression {tokens : List Lexeme} {tree : Expression}
    (phrase : ExpressionPhrase tokens tree) (spelled : ∀ lexeme ∈ tokens, lexeme.Spelled)
    (levels : Nat) (enough : tokens.length ≤ levels) (others : List Lexeme) :
    Follows (expression levels) ⟨tokens ++ others, labels⟩ (CheckedExpression tokens tree)
      (some tree) ⟨others, labels⟩ := by
  induction phrase generalizing levels others with
  | negation begins inner inductionHypothesis =>
      cases levels with
      | zero => simp at enough
      | succ levels =>
          refine .take (follows_negation begins (inductionHypothesis ?_ levels ?_ others))
          · exact fun lexeme member => spelled lexeme (by simp [member])
          · simpa using enough
  | @binary sign op first second left right begins leftPhrase rightPhrase leftHypothesis
      rightHypothesis =>
      cases levels with
      | zero => simp at enough
      | succ levels =>
          simp only [List.length_cons, List.length_append] at enough
          rw [List.cons_append, List.append_assoc]
          refine .pass (by rw [begins]; cases op <;> rfl) ?_
          refine .take (follows_binary begins (leftHypothesis ?_ levels ?_ _)
            (rightHypothesis ?_ levels ?_ _))
          · exact fun lexeme member => spelled lexeme (by simp [member])
          · omega
          · exact fun lexeme member => spelled lexeme (by simp [member])
          · omega
  | @nested opening closing tokens inner begins phrase ends inductionHypothesis =>
      cases levels with
      | zero => simp at enough
      | succ levels =>
          simp only [List.length_cons, List.length_append] at enough
          rw [List.cons_append, List.append_assoc]
          refine .pass (by rw [begins]; rfl) (.pass (by rw [begins]; rfl) ?_)
          refine .take (follows_nested begins ends (inductionHypothesis ?_ levels ?_ _))
          · exact fun lexeme member => spelled lexeme (by simp [member])
          · omega
  | @read sign begins =>
      cases levels with
      | zero => simp at enough
      | succ levels =>
          have kinds : sign.kind = .keyword .readWord ∨ sign.kind = .symbol .caret := by
            simpa [readKinds] using begins
          have refused : only (.symbol .bang) sign.kind = none ∧ binaryOperator sign.kind = none ∧
              only (.symbol .openParen) sign.kind = none := by
            rcases kinds with kind | kind <;> rw [kind] <;> exact ⟨rfl, rfl, rfl⟩
          exact .pass refused.1 (.pass refused.2.1 (.pass refused.2.2
            (.take (follows_readGlyph begins))))
  | @literal lexeme value stands =>
      cases levels with
      | zero => simp at enough
      | succ levels =>
          have refused : only (.symbol .bang) lexeme.kind = none ∧
              binaryOperator lexeme.kind = none ∧ only (.symbol .openParen) lexeme.kind = none ∧
              readSign lexeme.kind = none := by
            cases stands with
            | character kind text => rw [kind]; exact ⟨rfl, rfl, rfl, rfl⟩
            | integer kind => rw [kind]; exact ⟨rfl, rfl, rfl, rfl⟩
            | yes kind => rw [kind]; exact ⟨rfl, rfl, rfl, rfl⟩
            | no kind => rw [kind]; exact ⟨rfl, rfl, rfl, rfl⟩
          exact .pass refused.1 (.pass refused.2.1 (.pass refused.2.2.1 (.pass refused.2.2.2
            (.take (follows_literal stands (spelled lexeme (by simp)))))))

end Grammar

/-! ## Statements and blocks -/

structure CheckedCondition (tokens : List Lexeme) (test : Expression) : Prop where
  typed : HasType test .boolean
  range : AllInRange tokens

/-- The checks that a statement has to pass under some visible labels. -/
structure CheckedStatement (labels : Environment (Option Block)) (tokens : List Lexeme)
    (statement : Statement) : Prop where
  typed : statement.WellTyped
  range : AllInRange tokens
  resolved : ∀ name ∈ statement.gotos, labels.contains name = true

/-- The checks that a block has to pass under some visible labels. -/
structure CheckedBlock (labels : Environment (Option Block)) (tokens : List Lexeme)
    (block : Block) : Prop where
  typed : block.WellTyped
  range : AllInRange tokens
  resolved : ∀ name ∈ block.gotos, labels.contains name = true

def NoElse (tokens : List Lexeme) : Prop :=
  ∀ lexeme ∈ tokens.head?, lexeme.kind ≠ .keyword .elseWord

namespace Grammar

variable {labels : Environment (Option Block)} {others : List Lexeme}
  {expression : Parse (Option Expression)} {block : Parse (Option Block)}

theorem follows_semicolon {earlier final : Lexeme} {checks : Prop}
    (ends : final.kind = .symbol .semicolon) :
    Follows (semicolon earlier) ⟨final :: others, labels⟩ checks () ⟨others, labels⟩ :=
  .bind (.expect ends) id .pure

theorem follows_condition {word opening closing : Lexeme} {tokens : List Lexeme} {test : Expression}
    (begins : opening.kind = .symbol .openParen) (ends : closing.kind = .symbol .closeParen)
    (follows : Follows expression ⟨tokens ++ closing :: others, labels⟩
      (CheckedExpression tokens test) (some test) ⟨closing :: others, labels⟩) :
    Follows (condition expression word) ⟨opening :: (tokens ++ closing :: others), labels⟩
      (CheckedCondition (opening :: (tokens ++ [closing])) test) test ⟨others, labels⟩ := by
  have inner (checked : CheckedCondition (opening :: (tokens ++ [closing])) test) :
      test.type = .boolean ∧ CheckedExpression tokens test := by
    have boolean := checked.typed.type_eq
    have range := allInRange_append.mp (allInRange_cons.mp checked.range).2
    exact ⟨boolean, boolean ▸ checked.typed, range.1⟩
  refine .bind (.expect begins) id ?_
  refine .bind (.require follows) (fun checked => (inner checked).2) ?_
  refine .bind .checkType (fun checked => (inner checked).1) ?_
  exact .bind (.expect ends) id .pure

theorem follows_moveStatement {word final : Lexeme} {direction : Direction} {tokens : List Lexeme}
    {distance : Expression} (begins : word.kind ∈ direction.kinds)
    (ends : final.kind = .symbol .semicolon)
    (follows : Follows expression ⟨tokens ++ final :: others, labels⟩
      (CheckedExpression tokens distance) (some distance) ⟨final :: others, labels⟩) :
    Follows (moveStatement expression) ⟨word :: (tokens ++ final :: others), labels⟩
      (CheckedStatement labels (word :: (tokens ++ [final])) (.move direction distance word.line))
      (some (.move direction distance word.line)) ⟨others, labels⟩ := by
  have inner (checked : CheckedStatement labels (word :: (tokens ++ [final]))
      (.move direction distance word.line)) :
      distance.type = .number ∧ CheckedExpression tokens distance := by
    have typed : HasType distance .number := checked.typed
    have range := allInRange_append.mp (allInRange_cons.mp checked.range).2
    exact ⟨typed.type_eq, typed.type_eq ▸ typed, range.1⟩
  refine .production (moveDirection_eq_some.mpr begins) ?_
  refine .bind (.require follows) (fun checked => (inner checked).2) ?_
  refine .bind .checkType (fun checked => (inner checked).1) ?_
  exact .bind (follows_semicolon ends) id .pure

theorem follows_writeStatement {word final : Lexeme} {tokens : List Lexeme} {value : Expression}
    (begins : word.kind = .keyword .writeWord) (ends : final.kind = .symbol .semicolon)
    (follows : Follows expression ⟨tokens ++ final :: others, labels⟩
      (CheckedExpression tokens value) (some value) ⟨final :: others, labels⟩) :
    Follows (writeStatement expression) ⟨word :: (tokens ++ final :: others), labels⟩
      (CheckedStatement labels (word :: (tokens ++ [final])) (.write value word.line))
      (some (.write value word.line)) ⟨others, labels⟩ := by
  have inner (checked : CheckedStatement labels (word :: (tokens ++ [final]))
      (.write value word.line)) : value.type = .character ∧ CheckedExpression tokens value := by
    have typed : HasType value .character := checked.typed
    have range := allInRange_append.mp (allInRange_cons.mp checked.range).2
    exact ⟨typed.type_eq, typed.type_eq ▸ typed, range.1⟩
  refine .production (only_of_kind begins) ?_
  refine .bind (.require follows) (fun checked => (inner checked).2) ?_
  refine .bind .checkType (fun checked => (inner checked).1) ?_
  exact .bind (follows_semicolon ends) id .pure

theorem follows_gotoStatement {word label final : Lexeme} (begins : word.kind = .keyword .gotoWord)
    (names : label.kind = .identifier) (ends : final.kind = .symbol .semicolon) :
    Follows gotoStatement ⟨word :: label :: final :: others, labels⟩
      (CheckedStatement labels [word, label, final] (.goto label.text word.line))
      (some (.goto label.text word.line)) ⟨others, labels⟩ := by
  refine .production (only_of_kind begins) ?_
  refine .bind (.expect names) id ?_
  refine Meets.bind (Meets.labels ?_)
  intro parser visible
  dsimp only
  split
  · exact Follows.bind (follows_semicolon ends) id Follows.pure
  · rename_i hidden
    apply Meets.fail
    intro checked
    exact hidden (visible ▸ checked.resolved label.text (by simp [Statement.gotos]))

theorem follows_haltStatement {word final : Lexeme} {checks : Prop}
    (begins : word.kind = .keyword .haltWord) (ends : final.kind = .symbol .semicolon) :
    Follows haltStatement ⟨word :: final :: others, labels⟩ checks (some (.halt word.line))
      ⟨others, labels⟩ :=
  .production (only_of_kind begins) (.bind (follows_semicolon ends) id .pure)

theorem follows_elseBranch {other : Lexeme} {tokens : List Lexeme} {body : Block} {checks : Prop}
    (otherwise : other.kind = .keyword .elseWord)
    (follows : Follows block ⟨tokens ++ others, labels⟩ checks (some body) ⟨others, labels⟩) :
    Follows (elseBranch block) ⟨other :: (tokens ++ others), labels⟩ checks (some body)
      ⟨others, labels⟩ :=
  .production (only_of_kind otherwise) (.require follows)

theorem refuses_elseBranch {checks : Prop} (noElse : NoElse others) :
    Follows (elseBranch block) ⟨others, labels⟩ checks none ⟨others, labels⟩ :=
  .refuse fun lexeme member => if_neg (noElse lexeme member)

theorem follows_ifThen {word : Lexeme} {test tokens : List Lexeme} {condition : Expression}
    {body : Block} (begins : word.kind = .keyword .ifWord) (noElse : NoElse others)
    (followsTest : Follows (Grammar.condition expression word) ⟨test ++ (tokens ++ others), labels⟩
      (CheckedCondition test condition) condition ⟨tokens ++ others, labels⟩)
    (followsBody : Follows block ⟨tokens ++ others, labels⟩ (CheckedBlock labels tokens body)
      (some body) ⟨others, labels⟩) :
    Follows (ifStatement expression block) ⟨word :: (test ++ (tokens ++ others)), labels⟩
      (CheckedStatement labels (word :: (test ++ tokens)) (.ifThen condition body word.line))
      (some (.ifThen condition body word.line)) ⟨others, labels⟩ := by
  have inner (checked : CheckedStatement labels (word :: (test ++ tokens))
      (.ifThen condition body word.line)) :
      CheckedCondition test condition ∧ CheckedBlock labels tokens body := by
    have range := allInRange_append.mp (allInRange_cons.mp checked.range).2
    exact ⟨⟨checked.typed.1, range.1⟩, checked.typed.2, range.2, checked.resolved⟩
  refine .production (only_of_kind begins) ?_
  refine .bind followsTest (fun checked => (inner checked).1) ?_
  refine .bind (.require followsBody) (fun checked => (inner checked).2) ?_
  exact .bind (refuses_elseBranch noElse) id .pure

theorem follows_ifElse {word other : Lexeme} {test first second : List Lexeme}
    {condition : Expression} {thenBody elseBody : Block} (begins : word.kind = .keyword .ifWord)
    (otherwise : other.kind = .keyword .elseWord)
    (followsTest : Follows (Grammar.condition expression word)
      ⟨test ++ (first ++ other :: (second ++ others)), labels⟩ (CheckedCondition test condition)
      condition ⟨first ++ other :: (second ++ others), labels⟩)
    (followsThen : Follows block ⟨first ++ other :: (second ++ others), labels⟩
      (CheckedBlock labels first thenBody) (some thenBody) ⟨other :: (second ++ others), labels⟩)
    (followsElse : Follows block ⟨second ++ others, labels⟩ (CheckedBlock labels second elseBody)
      (some elseBody) ⟨others, labels⟩) :
    Follows (ifStatement expression block)
      ⟨word :: (test ++ (first ++ other :: (second ++ others))), labels⟩
      (CheckedStatement labels (word :: (test ++ (first ++ other :: second)))
        (.ifElse condition thenBody elseBody word.line))
      (some (.ifElse condition thenBody elseBody word.line)) ⟨others, labels⟩ := by
  have inner (checked : CheckedStatement labels (word :: (test ++ (first ++ other :: second)))
      (.ifElse condition thenBody elseBody word.line)) :
      CheckedCondition test condition ∧ CheckedBlock labels first thenBody ∧
        CheckedBlock labels second elseBody := by
    have range := allInRange_append.mp (allInRange_cons.mp checked.range).2
    have ranges := allInRange_append.mp range.2
    have resolved := checked.resolved
    simp only [Statement.gotos, List.mem_append, or_imp, forall_and] at resolved
    exact ⟨⟨checked.typed.1, range.1⟩, ⟨checked.typed.2.1, ranges.1, resolved.1⟩,
      ⟨checked.typed.2.2, (allInRange_cons.mp ranges.2).2, resolved.2⟩⟩
  refine .production (only_of_kind begins) ?_
  refine .bind followsTest (fun checked => (inner checked).1) ?_
  refine .bind (.require followsThen) (fun checked => (inner checked).2.1) ?_
  exact .bind (follows_elseBranch otherwise followsElse) (fun checked => (inner checked).2.2) .pure

theorem follows_whileStatement {word : Lexeme} {test tokens : List Lexeme} {condition : Expression}
    {body : Block} (begins : word.kind = .keyword .whileWord)
    (followsTest : Follows (Grammar.condition expression word) ⟨test ++ (tokens ++ others), labels⟩
      (CheckedCondition test condition) condition ⟨tokens ++ others, labels⟩)
    (followsBody : Follows block ⟨tokens ++ others, labels⟩ (CheckedBlock labels tokens body)
      (some body) ⟨others, labels⟩) :
    Follows (whileStatement expression block) ⟨word :: (test ++ (tokens ++ others)), labels⟩
      (CheckedStatement labels (word :: (test ++ tokens)) (.whileLoop condition body word.line))
      (some (.whileLoop condition body word.line)) ⟨others, labels⟩ := by
  have inner (checked : CheckedStatement labels (word :: (test ++ tokens))
      (.whileLoop condition body word.line)) :
      CheckedCondition test condition ∧ CheckedBlock labels tokens body := by
    have range := allInRange_append.mp (allInRange_cons.mp checked.range).2
    exact ⟨⟨checked.typed.1, range.1⟩, checked.typed.2, range.2, checked.resolved⟩
  refine .production (only_of_kind begins) ?_
  refine .bind followsTest (fun checked => (inner checked).1) ?_
  exact .bind (.require followsBody) (fun checked => (inner checked).2) .pure

end Grammar

/-! ## Statements at any depth -/

/-- Nothing follows, or the end of a block. -/
def Stops (tokens : List Lexeme) : Prop :=
  ∀ lexeme ∈ tokens.head?, lexeme.kind = .symbol .closeBrace

theorem Stops.noElse {tokens : List Lexeme} (stops : Stops tokens) : NoElse tokens := by
  intro lexeme member
  rw [stops lexeme member]
  decide

namespace Grammar

variable {labels : Environment (Option Block)} {others : List Lexeme}

theorem noElse_of_phrase {tokens : List Lexeme} {tree : Statement}
    (phrase : StatementPhrase tokens tree) : NoElse (tokens ++ others) := by
  rcases phrase.front with ⟨word, rest, rfl, begins⟩
  simpa [NoElse] using (Statement.ne_of_mem_openings begins).1

/-- A step finds every statement of at most a number of tokens, and nothing where statements
stop. -/
structure FollowsStatements (statement : Parse (Option Statement)) (size : Nat) : Prop where
  follows : ∀ {labels tokens tree others}, StatementPhrase tokens tree → tokens.length ≤ size →
    (∀ lexeme ∈ tokens, lexeme.Spelled) → NoElse others →
    Follows statement ⟨tokens ++ others, labels⟩ (CheckedStatement labels tokens tree) (some tree)
      ⟨others, labels⟩
  refuses : ∀ {labels others checks}, Stops others →
    Follows statement ⟨others, labels⟩ checks none ⟨others, labels⟩

theorem FollowsStatements.many {statement : Parse (Option Statement)} {size : Nat}
    (complete : FollowsStatements statement size) {tokens : List Lexeme} {trees : List Statement}
    (phrases : Phrases StatementPhrase tokens trees) (enough : tokens.length ≤ size)
    (spelled : ∀ lexeme ∈ tokens, lexeme.Spelled) (stops : Stops others) (limit : Nat)
    (short : trees.length ≤ limit) (line : Nat) :
    Follows (many statement limit) ⟨tokens ++ others, labels⟩
      (CheckedBlock labels tokens (.mk trees line)) trees ⟨others, labels⟩ := by
  induction phrases generalizing limit with
  | nil =>
      cases limit with
      | zero => exact .pure
      | succ limit => exact .bind (complete.refuses stops) id .pure
  | @cons first rest tree trees head tail inductionHypothesis =>
      cases limit with
      | zero => simp at short
      | succ limit =>
          simp only [List.length_append, List.length_cons] at enough short
          have noElse : NoElse (rest ++ others) := by
            cases tail with
            | nil => exact stops.noElse
            | cons next _ =>
                rw [List.append_assoc]
                exact noElse_of_phrase next
          have inner (checked : CheckedBlock labels (first ++ rest) (.mk (tree :: trees) line)) :
              CheckedStatement labels first tree ∧
                CheckedBlock labels rest (.mk trees line) := by
            have range := allInRange_append.mp checked.range
            have resolved := checked.resolved
            simp only [Block.gotos, Statement.gotosOf, List.mem_append, or_imp, forall_and]
              at resolved
            exact ⟨⟨checked.typed.1, range.1, resolved.1⟩, checked.typed.2, range.2, resolved.2⟩
          rw [List.append_assoc]
          refine .bind (complete.follows head (by omega) ?_ noElse)
            (fun checked => (inner checked).1) ?_
          · exact fun lexeme member => spelled lexeme (by simp [member])
          · refine .bind (inductionHypothesis (by omega) ?_ limit (by omega))
              (fun checked => (inner checked).2) .pure
            exact fun lexeme member => spelled lexeme (by simp [member])

theorem FollowsStatements.block {statement : Parse (Option Statement)} {size : Nat}
    (complete : FollowsStatements statement size) {tokens : List Lexeme} {body : Block}
    (phrase : BlockPhrase tokens body) (enough : tokens.length ≤ size)
    (spelled : ∀ lexeme ∈ tokens, lexeme.Spelled) (limit : Nat) (short : tokens.length ≤ limit) :
    Follows (Grammar.block statement limit) ⟨tokens ++ others, labels⟩
      (CheckedBlock labels tokens body) (some body) ⟨others, labels⟩ := by
  obtain @⟨opening, closing, inside, statements, begins, phrases, ends⟩ := phrase
  have count := phrases.length_le fun _ _ => StatementPhrase.ne_nil
  simp only [List.length_cons, List.length_append] at enough short
  have stops : Stops (closing :: others) := by simpa [Stops] using ends
  rw [List.cons_append, List.append_assoc]
  refine .production (only_of_kind begins) ?_
  refine .bind .modifyLabels id ?_
  refine .bind (complete.many phrases (by omega) ?_ stops limit (by omega) opening.line) ?_ ?_
  · exact fun lexeme member => spelled lexeme (by simp [member])
  · intro checked
    have range := allInRange_append.mp (allInRange_cons.mp checked.range).2
    exact ⟨checked.typed, range.1, fun name member => by simpa using checked.resolved name member⟩
  · exact .bind .modifyLabels id (.bind (.expect ends) id .pure)

theorem refuses_statement (limit levels : Nat) {checks : Prop} (stops : Stops others) :
    Follows (statement limit levels) ⟨others, labels⟩ checks none ⟨others, labels⟩ := by
  cases levels with
  | zero => exact .pure
  | succ levels =>
      have refused {β : Type} {select : Kind → Option β}
          (none : select (.symbol .closeBrace) = none) :
          ∀ lexeme ∈ others.head?, select lexeme.kind = Option.none := by
        intro lexeme member
        rw [stops lexeme member, none]
      exact .skip (.refuse (refused rfl)) (.skip (.refuse (refused rfl))
        (.skip (.refuse (refused rfl)) (.skip (.refuse (refused rfl))
          (.skip (.refuse (refused rfl)) (.skip (.refuse (refused rfl))
            (.skip (.refuse (refused rfl)) .firstOf_nil))))))

theorem follows_conditionPhrase {word : Lexeme} {tokens : List Lexeme} {test : Expression}
    (phrase : ConditionPhrase tokens test) (spelled : ∀ lexeme ∈ tokens, lexeme.Spelled)
    (limit : Nat) (enough : tokens.length ≤ limit) :
    Follows (condition (expression limit) word) ⟨tokens ++ others, labels⟩
      (CheckedCondition tokens test) test ⟨others, labels⟩ := by
  obtain @⟨opening, closing, inside, _, begins, phrase, ends⟩ := phrase
  simp only [List.length_cons, List.length_append] at enough
  rw [List.cons_append, List.append_assoc]
  refine follows_condition begins ends (follows_expression phrase ?_ limit (by omega) _)
  exact fun lexeme member => spelled lexeme (by simp [member])

/-- In front of a statement, the statement is found at enough levels. -/
theorem follows_statement (limit levels : Nat) (large : levels ≤ limit) :
    FollowsStatements (statement limit levels) levels := by
  induction levels with
  | zero =>
      refine ⟨?_, refuses_statement limit 0⟩
      intro labels tokens tree others phrase enough
      exact absurd (List.length_eq_zero_iff.mp (Nat.le_zero.mp enough)) phrase.ne_nil
  | succ levels inductionHypothesis =>
      have complete := inductionHypothesis (by omega)
      refine ⟨?_, refuses_statement limit (levels + 1)⟩
      intro labels tokens tree others phrase enough spelled noElse
      -- The alternatives in front of the one that the first token selects are passed over.
      cases phrase with
      | empty ends => exact .take (.production (only_of_kind ends) .pure)
      | @move word final direction tokens distance begins operand ends =>
          simp only [List.length_cons, List.length_append] at enough
          rw [List.cons_append, List.append_assoc]
          refine .pass ?_ (.take (follows_moveStatement begins ends
            (follows_expression operand ?_ limit (by omega) _)))
          · cases direction <;> simp only [Direction.kinds, List.mem_cons, List.not_mem_nil,
              or_false] at begins <;> rcases begins with kind | kind <;> rw [kind] <;> rfl
          · exact fun lexeme member => spelled lexeme (by simp [member])
      | @write word final tokens value begins operand ends =>
          simp only [List.length_cons, List.length_append] at enough
          rw [List.cons_append, List.append_assoc]
          refine .pass (by rw [begins]; rfl) (.pass (by rw [begins]; rfl) (.take
            (follows_writeStatement begins ends (follows_expression operand ?_ limit (by omega) _))))
          exact fun lexeme member => spelled lexeme (by simp [member])
      | goto begins names ends =>
          exact .pass (by rw [begins]; rfl) (.pass (by rw [begins]; rfl)
            (.pass (by rw [begins]; rfl) (.take (follows_gotoStatement begins names ends))))
      | @ifThen word test tokens condition body begins tests block =>
          simp only [List.length_cons, List.length_append] at enough
          rw [List.cons_append, List.append_assoc]
          refine .pass (by rw [begins]; rfl) (.pass (by rw [begins]; rfl)
            (.pass (by rw [begins]; rfl) (.pass (by rw [begins]; rfl) (.take ?_))))
          refine follows_ifThen begins noElse
            (follows_conditionPhrase tests ?_ limit (by omega))
            (complete.block block (by omega) ?_ limit (by omega))
          · exact fun lexeme member => spelled lexeme (by simp [member])
          · exact fun lexeme member => spelled lexeme (by simp [member])
      | @ifElse word other test first second condition thenBody elseBody begins tests thenBlock
          otherwise elseBlock =>
          simp only [List.length_cons, List.length_append] at enough
          rw [List.cons_append, List.append_assoc, List.append_assoc, List.cons_append]
          refine .pass (by rw [begins]; rfl) (.pass (by rw [begins]; rfl)
            (.pass (by rw [begins]; rfl) (.pass (by rw [begins]; rfl) (.take ?_))))
          refine follows_ifElse begins otherwise
            (follows_conditionPhrase tests ?_ limit (by omega))
            (complete.block thenBlock (by omega) ?_ limit (by omega))
            (complete.block elseBlock (by omega) ?_ limit (by omega))
          · exact fun lexeme member => spelled lexeme (by simp [member])
          · exact fun lexeme member => spelled lexeme (by simp [member])
          · exact fun lexeme member => spelled lexeme (by simp [member])
      | @whileLoop word test tokens condition body begins tests block =>
          simp only [List.length_cons, List.length_append] at enough
          rw [List.cons_append, List.append_assoc]
          refine .pass (by rw [begins]; rfl) (.pass (by rw [begins]; rfl)
            (.pass (by rw [begins]; rfl) (.pass (by rw [begins]; rfl)
              (.pass (by rw [begins]; rfl) (.take ?_)))))
          refine follows_whileStatement begins
            (follows_conditionPhrase tests ?_ limit (by omega))
            (complete.block block (by omega) ?_ limit (by omega))
          · exact fun lexeme member => spelled lexeme (by simp [member])
          · exact fun lexeme member => spelled lexeme (by simp [member])
      | halt begins ends =>
          exact .pass (by rw [begins]; rfl) (.pass (by rw [begins]; rfl)
            (.pass (by rw [begins]; rfl) (.pass (by rw [begins]; rfl)
              (.pass (by rw [begins]; rfl) (.pass (by rw [begins]; rfl)
                (.take (follows_haltStatement begins ends)))))))

end Grammar

/-! ## Items and programs -/

/-- The checks that an item has to pass behind some visible labels. -/
structure CheckedItem (labels : Environment (Option Block)) (tokens : List Lexeme) (item : Item) :
    Prop where
  typed : item.WellTyped
  range : AllInRange tokens
  resolved : ∀ name ∈ item.gotos, (item.declare labels).contains name = true

/-- The checks that the items of a program have to pass behind some visible labels. -/
structure CheckedItems (labels : Environment (Option Block)) (tokens : List Lexeme)
    (items : List Item) : Prop where
  typed : ∀ item ∈ items, item.WellTyped
  range : AllInRange tokens
  resolved : Item.Resolve (fun name => labels.contains name = true) items

namespace Grammar

variable {labels : Environment (Option Block)} {others : List Lexeme}

theorem follows_item {tokens : List Lexeme} {tree : Item} (phrase : ItemPhrase tokens tree)
    (spelled : ∀ lexeme ∈ tokens, lexeme.Spelled) (limit : Nat) (enough : tokens.length ≤ limit)
    (noElse : NoElse others) :
    Follows (item limit) ⟨tokens ++ others, labels⟩ (CheckedItem labels tokens tree) (some tree)
      ⟨others, tree.declare labels⟩ := by
  have complete := follows_statement limit limit (Nat.le_refl limit)
  cases phrase with
  | @label name colon tokens body names follows block =>
      simp only [List.length_cons] at enough
      have inner (checked : CheckedItem labels (name :: colon :: tokens)
          (.label ⟨name.text, body, name.line⟩)) :
          CheckedBlock (labels.define name.text none) tokens body := by
        refine ⟨checked.typed, (allInRange_cons.mp (allInRange_cons.mp checked.range).2).2, ?_⟩
        intro other member
        have visible := (Item.contains_declare _ _ _).mp (checked.resolved other member)
        rw [Environment.contains_define]
        rcases visible with outside | own
        · rw [outside, Bool.or_true]
        · have same : name.text = other := Option.some.inj own
          simp [same]
      have found : Follows (labelDefinition (Grammar.block (statement limit limit) limit))
          ⟨name :: colon :: (tokens ++ others), labels⟩
          (CheckedItem labels (name :: colon :: tokens) (.label ⟨name.text, body, name.line⟩))
          (some ⟨name.text, body, name.line⟩)
          ⟨others, Item.declare labels (.label ⟨name.text, body, name.line⟩)⟩ := by
        refine .production (only_of_kind names) ?_
        refine .bind (.expect follows) id ?_
        refine .bind .modifyLabels id ?_
        refine .bind (.require (complete.block block (by omega) ?_ limit (by omega))) inner ?_
        · exact fun lexeme member => spelled lexeme (by simp [member])
        · exact .bind .modifyLabels id .pure
      exact .bind found id .pure
  | @statement tokens entry phrase =>
      rcases phrase.front with ⟨word, rest, same, begins⟩
      refine .bind (.refuse ?_) id ?_
      · intro lexeme member
        obtain rfl : word = lexeme := by simpa [same] using member
        exact if_neg (Statement.ne_of_mem_openings begins).2
      · refine .bind (complete.follows phrase enough spelled noElse) ?_ .pure
        exact fun checked => ⟨checked.typed, checked.range, checked.resolved⟩

theorem refuses_item (limit : Nat) {checks : Prop} :
    Follows (item limit) ⟨[], labels⟩ checks none ⟨[], labels⟩ := by
  have stops : Stops [] := by simp [Stops]
  refine .bind (.refuse (by simp)) id ?_
  exact .bind (refuses_statement limit limit stops) id .pure

theorem follows_items {tokens : List Lexeme} {trees : List Item}
    (phrases : Phrases ItemPhrase tokens trees) (spelled : ∀ lexeme ∈ tokens, lexeme.Spelled)
    (limit count : Nat) (enough : tokens.length ≤ limit) (short : trees.length ≤ count) :
    Follows (many (item limit) count) ⟨tokens, labels⟩ (CheckedItems labels tokens trees) trees
      ⟨[], trees.foldl Item.declare labels⟩ := by
  induction phrases generalizing labels count with
  | nil =>
      cases count with
      | zero => exact .pure
      | succ count => exact .bind (refuses_item limit) id .pure
  | @cons first rest tree trees head tail inductionHypothesis =>
      cases count with
      | zero => simp at short
      | succ count =>
          simp only [List.length_append, List.length_cons] at enough short
          have noElse : NoElse rest := by
            cases tail with
            | nil => simp [NoElse]
            | cons next _ =>
                rcases next.front with ⟨word, others, rfl, different⟩
                simpa [NoElse] using different
          have inner (checked : CheckedItems labels (first ++ rest) (tree :: trees)) :
              CheckedItem labels first tree ∧ CheckedItems (tree.declare labels) rest trees := by
            have range := allInRange_append.mp checked.range
            have typed := List.forall_mem_cons.mp checked.typed
            refine ⟨⟨typed.1, range.1, fun name member => ?_⟩, typed.2, range.2, ?_⟩
            · exact (Item.contains_declare _ _ _).mpr (checked.resolved.1 name member)
            · simpa only [Item.contains_declare] using checked.resolved.2
          refine .bind (follows_item head ?_ limit (by omega) noElse)
            (fun checked => (inner checked).1) ?_
          · exact fun lexeme member => spelled lexeme (by simp [member])
          · refine .bind (inductionHypothesis ?_ count (by omega) (by omega))
              (fun checked => (inner checked).2) .pure
            exact fun lexeme member => spelled lexeme (by simp [member])

/-- In front of the tokens of a program and nothing else, the program is found. -/
theorem follows_program {tokens : List Lexeme} {tree : Program}
    (phrase : ProgramPhrase tokens tree) (spelled : ∀ lexeme ∈ tokens, lexeme.Spelled)
    (limit : Nat) (enough : tokens.length ≤ limit) :
    Follows (program limit) ⟨tokens, labels⟩ (CheckedItems labels tokens tree.items) tree
      ⟨[], tree.items.foldl Item.declare labels⟩ := by
  have count := Phrases.length_le (fun _ _ => ItemPhrase.ne_nil) phrase
  refine .bind (follows_items phrase spelled limit limit enough (by omega)) id ?_
  refine Meets.bind (Meets.hasLexeme (by simp) ?_ (by simp))
  intro _ _
  simp only [Bool.false_eq_true, ↓reduceIte]
  exact Follows.pure

end Grammar

end TapeMachine
