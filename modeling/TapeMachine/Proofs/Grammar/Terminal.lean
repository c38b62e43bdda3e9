import TapeMachine.Grammar.Statement
import TapeMachine.Proofs.Syntax.Phrase
import TapeMachine.Proofs.Syntax.Typing

/-!
Contract: which tokens the productions begin with.

Owns: the agreement of what a production selects a token by with the terminals of the grammar, and
of the values that are read from tokens with the values that tokens stand for.
-/

namespace TapeMachine.Grammar

theorem only_eq_some {wanted found : Kind} {choice : Unit} :
    only wanted found = some choice ↔ found = wanted := by
  unfold only
  split <;> simp_all

theorem only_of_kind {wanted found : Kind} (same : found = wanted) : only wanted found = some () :=
  if_pos same

theorem binaryOperator_eq_some {kind : Kind} {op : BinaryOp} :
    binaryOperator kind = some op ↔ kind = op.kind := by
  constructor
  · intro found
    unfold binaryOperator at found
    split at found <;> first | (obtain rfl := Option.some.inj found; rfl) | simp at found
  · rintro rfl
    cases op <;> rfl

theorem moveDirection_eq_some {kind : Kind} {direction : Direction} :
    moveDirection kind = some direction ↔ kind ∈ direction.kinds := by
  constructor
  · intro found
    unfold moveDirection at found
    split at found <;> first
      | (obtain rfl := Option.some.inj found; simp [Direction.kinds]) | simp at found
  · intro member
    cases direction <;> simp only [Direction.kinds, List.mem_cons, List.not_mem_nil, or_false]
      at member <;> rcases member with rfl | rfl <;> rfl

theorem readSign_eq_some {kind : Kind} {choice : Unit} :
    readSign kind = some choice ↔ kind ∈ readKinds := by
  constructor
  · intro found
    unfold readSign at found
    split at found <;> simp_all [readKinds]
  · intro member
    simp only [readKinds, List.mem_cons, List.not_mem_nil, or_false] at member
    rcases member with rfl | rfl <;> rfl

/-! ## Literals -/

def LiteralKind.kind : LiteralKind → Kind
  | .character => .literal
  | .integer => .integer
  | .truth true => .keyword .trueWord
  | .truth false => .keyword .falseWord

theorem literalKind_eq_some {kind : Kind} {literal : LiteralKind} :
    literalKind kind = some literal ↔ kind = literal.kind := by
  constructor
  · intro found
    unfold literalKind at found
    split at found <;> first | (obtain rfl := Option.some.inj found; rfl) | simp at found
  · rintro rfl
    cases literal with
    | character => rfl
    | integer => rfl
    | truth value => cases value <;> rfl

/-- A value that is read from a token is the one that it stands for, and in range. -/
theorem denotes_of_literalValue {lexeme : Lexeme} {literal : LiteralKind} {value : Value}
    (kind : lexeme.kind = literal.kind)
    (read : literalValue literal lexeme.text.toList = .ok value) :
    Denotes lexeme value ∧ lexeme.InRange := by
  cases literal with
  | character =>
      simp only [literalValue] at read
      split at read
      · rename_i glyph text
        obtain rfl := Except.ok.inj read
        exact ⟨.character kind text, Lexeme.inRange_of_kind kind (by decide)⟩
      · simp at read
  | integer =>
      simp only [literalValue, Text.decimal?] at read
      split at read
      · rename_i number decimal
        obtain ⟨-, same⟩ := Option.ite_none_right_eq_some.mp decimal
        obtain rfl := Option.some.inj same
        split at read
        · rename_i small
          obtain rfl := Except.ok.inj read
          exact ⟨.integer kind, fun _ => small⟩
        · simp at read
      · simp at read
  | truth truth =>
      obtain rfl := Except.ok.inj read
      cases truth with
      | true => exact ⟨.yes kind, Lexeme.inRange_of_kind kind (by decide)⟩
      | false => exact ⟨.no kind, Lexeme.inRange_of_kind kind (by decide)⟩

/-- The value that a token stands for is read from it, unless it is a number out of range. The
text of an integer has to be a row of digits, as it is when it comes out of a text. -/
theorem literalValue_of_denotes {lexeme : Lexeme} {value : Value} (stands : Denotes lexeme value)
    (digits : lexeme.kind = .integer →
      lexeme.text.toList ≠ [] ∧ lexeme.text.toList.all Char.isDigit = true) :
    ∃ literal : LiteralKind, lexeme.kind = literal.kind ∧
      (literalValue literal lexeme.text.toList = .ok value ∨
        (∃ cause, literalValue literal lexeme.text.toList = .error cause) ∧ ¬ lexeme.InRange) := by
  cases stands with
  | character kind text => exact ⟨.character, kind, .inl (by simp [literalValue, text])⟩
  | yes kind => exact ⟨.truth true, kind, .inl rfl⟩
  | no kind => exact ⟨.truth false, kind, .inl rfl⟩
  | integer kind =>
      refine ⟨.integer, kind, ?_⟩
      have decimal : Text.decimal? lexeme.text.toList =
          some (Text.decimalValue lexeme.text.toList) := if_pos (digits kind)
      by_cases small : Text.decimalValue lexeme.text.toList ≤ maxInteger
      · exact .inl (by simp [literalValue, decimal, small])
      · exact .inr ⟨⟨.integerOutOfRange, by simp [literalValue, decimal, small]⟩,
          fun within => small (within kind)⟩

end TapeMachine.Grammar
