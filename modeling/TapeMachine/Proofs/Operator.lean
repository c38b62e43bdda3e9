import TapeMachine.Operator

/-!
Contract: operators on operands of the right types.

Owns: the shape of a value of a type, and the result of an operator whose operands have the types
that it needs.
-/

namespace TapeMachine

namespace Value

theorem eq_number {value : Value} (type : value.type = .number) :
    ∃ number, value = .number number := by
  cases value with
  | number number => exact ⟨number, rfl⟩
  | character glyph => contradiction
  | boolean truth => contradiction

theorem eq_character {value : Value} (type : value.type = .character) :
    ∃ glyph, value = .character glyph := by
  cases value with
  | number number => contradiction
  | character glyph => exact ⟨glyph, rfl⟩
  | boolean truth => contradiction

theorem eq_boolean {value : Value} (type : value.type = .boolean) :
    ∃ truth, value = .boolean truth := by
  cases value with
  | number number => contradiction
  | character glyph => contradiction
  | boolean truth => exact ⟨truth, rfl⟩

end Value

/-- An operator has a result if it is no logical one or its operands are truth values. -/
theorem BinaryOp.apply_of_types {op : BinaryOp} {left right : Value}
    (logical : op.isLogical = true → left.type = .boolean ∧ right.type = .boolean) :
    ∃ truth, op.apply left right = .ok truth := by
  cases op with
  | and =>
      obtain ⟨first, rfl⟩ := Value.eq_boolean (logical rfl).1
      obtain ⟨second, rfl⟩ := Value.eq_boolean (logical rfl).2
      exact ⟨first && second, rfl⟩
  | or =>
      obtain ⟨first, rfl⟩ := Value.eq_boolean (logical rfl).1
      obtain ⟨second, rfl⟩ := Value.eq_boolean (logical rfl).2
      exact ⟨first || second, rfl⟩
  | _ => exact ⟨_, rfl⟩

end TapeMachine
