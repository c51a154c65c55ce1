import PrefixArith.Term.Value

/-!
# Steps of evaluation

What the value of a node is, in terms of the values of its operands: the first operand that fails
decides, and if none does the node's own step.
-/
namespace PrefixArith.Term

variable {mode : Overflow} {token : Token} {operand left right : Term} {a b : Int64}
  {error : EvalError}

theorem value_keyword_of_ok (only : operand.value mode = .ok a) :
    (keyword token operand).value mode = keywordValue token a := by
  rw [value, only]
  rfl

theorem value_keyword_of_error (only : operand.value mode = .error error) :
    (keyword token operand).value mode = .error error := by
  rw [value, only]
  rfl

/-- A keyword `simplify` has the value of its operand, or its fault. -/
theorem value_simplify (simplify : token.text = "simplify") (mode : Overflow) :
    (keyword token operand).value mode = operand.value mode := by
  cases only : operand.value mode with
  | error error => exact value_keyword_of_error only
  | ok a => rw [value_keyword_of_ok only, keywordValue, if_pos simplify]

theorem value_operation_of_ok (first : left.value mode = .ok a)
    (second : right.value mode = .ok b) :
    (operation token left right).value mode = operationValue mode token a b := by
  rw [value, first, second]
  rfl

theorem value_operation_of_first (first : left.value mode = .error error) :
    (operation token left right).value mode = .error error := by
  rw [value, first]
  rfl

theorem value_operation_of_second (first : left.value mode = .ok a)
    (second : right.value mode = .error error) :
    (operation token left right).value mode = .error error := by
  rw [value, first, second]
  rfl

/-! ## Where a value comes from -/

theorem value_keyword_eq_ok {v : Int64} (success : (keyword token operand).value mode = .ok v) :
    ∃ a, operand.value mode = .ok a ∧ keywordValue token a = .ok v := by
  cases only : operand.value mode with
  | error error =>
    rw [value_keyword_of_error only] at success
    cases success
  | ok a =>
    rw [value_keyword_of_ok only] at success
    exact ⟨a, rfl, success⟩

theorem value_operation_eq_ok {v : Int64}
    (success : (operation token left right).value mode = .ok v) :
    ∃ a b, left.value mode = .ok a ∧ right.value mode = .ok b ∧
      operationValue mode token a b = .ok v := by
  cases first : left.value mode with
  | error error =>
    rw [value_operation_of_first first] at success
    cases success
  | ok a =>
    cases second : right.value mode with
    | error error =>
      rw [value_operation_of_second first second] at success
      cases success
    | ok b =>
      rw [value_operation_of_ok first second] at success
      exact ⟨a, b, rfl, rfl, success⟩

/-! ## Where a fault comes from -/

theorem value_keyword_eq_error (failure : (keyword token operand).value mode = .error error) :
    operand.value mode = .error error ∨
      ∃ a, operand.value mode = .ok a ∧ keywordValue token a = .error error := by
  cases only : operand.value mode with
  | error earlier =>
    rw [value_keyword_of_error only] at failure
    exact .inl failure
  | ok a =>
    rw [value_keyword_of_ok only] at failure
    exact .inr ⟨a, rfl, failure⟩

theorem value_operation_eq_error
    (failure : (operation token left right).value mode = .error error) :
    left.value mode = .error error ∨
      ∃ a, left.value mode = .ok a ∧ (right.value mode = .error error ∨
        ∃ b, right.value mode = .ok b ∧ operationValue mode token a b = .error error) := by
  cases first : left.value mode with
  | error earlier =>
    rw [value_operation_of_first first] at failure
    exact .inl failure
  | ok a =>
    refine .inr ⟨a, rfl, ?_⟩
    cases second : right.value mode with
    | error earlier =>
      rw [value_operation_of_second first second] at failure
      exact .inl failure
    | ok b =>
      rw [value_operation_of_ok first second] at failure
      exact .inr ⟨b, rfl, failure⟩

end PrefixArith.Term
