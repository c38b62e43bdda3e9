import TapeMachine.Text.Decimal

/-!
Contract: a number is read back from its decimal digits.

Owns: that decimal text is a non-empty row of digits without a leading zero, its value, also behind
zeros that fill it up, and the reading of an integer from its text with and without a sign.
-/

namespace TapeMachine.Text

theorem digit_spec :
    ∀ value < 10, (digit value).isDigit = true ∧ digitValue (digit value) = value := by
  decide

theorem isDigit_of_mem_decimal (value : Nat) : ∀ glyph ∈ decimal value, glyph.isDigit = true := by
  induction value using decimal.induct with
  | case1 value small =>
      rw [decimal, if_pos small]
      simpa using (digit_spec value small).1
  | case2 value large inductionHypothesis =>
      rw [decimal, if_neg large]
      intro glyph member
      rcases List.mem_append.mp member with member | member
      · exact inductionHypothesis glyph member
      · rw [List.mem_singleton.mp member]
        exact (digit_spec _ (Nat.mod_lt _ (by decide))).1

theorem decimal_ne_nil (value : Nat) : decimal value ≠ [] := by
  rw [decimal]
  split <;> simp

theorem decimal_of_pos {value : Nat} (positive : 0 < value) :
    ∃ first others, decimal value = first :: others ∧ first ≠ '0' := by
  induction value using decimal.induct with
  | case1 value small =>
      rw [decimal, if_pos small]
      refine ⟨_, _, rfl, ?_⟩
      intro zero
      have same := (digit_spec value small).2
      rw [zero] at same
      exact absurd same (Nat.ne_of_lt positive)
  | case2 value large inductionHypothesis =>
      obtain ⟨first, others, same, nonzero⟩ := inductionHypothesis (by omega)
      rw [decimal, if_neg large, same]
      exact ⟨_, _, rfl, nonzero⟩

/-- Another digit behind a row of digits multiplies the value by ten. -/
theorem decimalValue_append_digit (digits : List Char) (glyph : Char) :
    decimalValue (digits ++ [glyph]) = 10 * decimalValue digits + digitValue glyph := by
  simp [decimalValue]

theorem decimalValue_decimal (value : Nat) : decimalValue (decimal value) = value := by
  induction value using decimal.induct with
  | case1 value small =>
      rw [decimal, if_pos small]
      simpa [decimalValue] using (digit_spec value small).2
  | case2 value large inductionHypothesis =>
      rw [decimal, if_neg large, decimalValue_append_digit, inductionHypothesis,
        (digit_spec _ (Nat.mod_lt _ (by decide))).2]
      exact Nat.div_add_mod value 10

theorem decimal?_decimal (value : Nat) : decimal? (decimal value) = some value := by
  have digits : (decimal value).all Char.isDigit = true :=
    List.all_eq_true.mpr (isDigit_of_mem_decimal value)
  rw [decimal?, if_pos ⟨decimal_ne_nil value, digits⟩, decimalValue_decimal]

/-- Zeros in front of a row of digits do not change its value. -/
theorem decimalValue_zeros (count : Nat) (digits : List Char) :
    decimalValue (List.replicate count '0' ++ digits) = decimalValue digits := by
  induction count with
  | zero => rfl
  | succ count inductionHypothesis => exact inductionHypothesis

theorem isDigit_of_mem_padLeft {width : Nat} {text : List Char}
    (digits : ∀ glyph ∈ text, glyph.isDigit = true) :
    ∀ glyph ∈ padLeft width '0' text, glyph.isDigit = true := by
  intro glyph member
  rcases List.mem_append.mp member with member | member
  · rw [List.eq_of_mem_replicate member]
    rfl
  · exact digits glyph member

/-! ## Integers -/

theorem integer?_of_digits {text : List Char} (digits : ∀ glyph ∈ text, glyph.isDigit = true) :
    integer? text = (decimal? text).map fun value => (value : Int) := by
  unfold integer?
  split
  next => exact absurd (digits '-' List.mem_cons_self) (by decide)
  next => exact absurd (digits '+' List.mem_cons_self) (by decide)
  next => rfl

theorem integer?_minus (value : Nat) :
    integer? ('-' :: decimal (value + 1)) = some (.negSucc value) := by
  rw [integer?, decimal?_decimal]
  rfl

theorem integer?_integer (value : Int) : integer? (integer value) = some value := by
  cases value with
  | ofNat value =>
      rw [integer, integer?_of_digits (isDigit_of_mem_decimal value), decimal?_decimal]
      rfl
  | negSucc value => exact integer?_minus value

theorem integer?_signed (value : Int) : integer? (signed value) = some value := by
  cases value with
  | ofNat value =>
      rw [signed, integer?, decimal?_decimal]
      rfl
  | negSucc value => exact integer?_minus value

/-- The characters of a signed number. -/
theorem mem_signed {value : Int} {glyph : Char} (member : glyph ∈ signed value) :
    glyph = '+' ∨ glyph = '-' ∨ glyph.isDigit = true := by
  cases value with
  | ofNat value =>
      rcases List.mem_cons.mp member with plus | member
      · exact .inl plus
      · exact .inr (.inr (isDigit_of_mem_decimal value glyph member))
  | negSucc value =>
      rcases List.mem_cons.mp member with minus | member
      · exact .inr (.inl minus)
      · exact .inr (.inr (isDigit_of_mem_decimal _ glyph member))

end TapeMachine.Text
