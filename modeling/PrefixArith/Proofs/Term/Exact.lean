import Mathlib.Data.List.Basic
import Mathlib.Tactic.Tauto
import PrefixArith.Proofs.Decimal
import PrefixArith.Proofs.Term.Evaluation

/-!
# Exact values

The value that a term has in unbounded integers, and how the two ways of evaluation on words compare
with it. As long as no operation on the way leaves the range of a word, words and integers agree, so
checked evaluation either gives the exact value or names the first operation, in the order of
evaluation, whose exact value is no word (`value_checked`).
-/
namespace PrefixArith

namespace Operator

/-- It does not matter whether operands are wrapped around before an operation or the result after
it. -/
theorem onWords_ofInt (operator : Operator) (m n : Int) :
    operator.onWords (Int64.ofInt m) (Int64.ofInt n) = Int64.ofInt (operator.onInts m n) := by
  cases operator with
  | add => rw [onWords, onInts, Int64.ofInt_add]
  | subtract => rw [onWords, onInts, Int64.ofInt_sub]
  | multiply => rw [onWords, onInts, Int64.ofInt_mul]

/-- Operations on words are the exact ones, wrapped around. -/
theorem onWords_eq_ofInt (operator : Operator) (a b : Int64) :
    operator.onWords a b = Int64.ofInt (operator.onInts a.toInt b.toInt) := by
  rw [← onWords_ofInt, Int64.ofInt_toInt, Int64.ofInt_toInt]

end Operator

namespace Term
open Decimal (Fits)

/-- Every literal is the numeral of a word, every keyword is `simplify` and every operator is
known. -/
def Supported : Term → Prop
  | .literal token => ∃ z, Decimal.intOfChars? token.text.toList = some z ∧ Fits z
  | .keyword token operand => token.text = "simplify" ∧ operand.Supported
  | .operation token left right =>
    (Operator.ofText? token.text).isSome ∧ left.Supported ∧ right.Supported

/-- The value in unbounded integers. Parts that are not supported count as zero. -/
def exact : Term → Int
  | .literal token => (Decimal.intOfChars? token.text.toList).getD 0
  | .keyword _ operand => operand.exact
  | .operation token left right =>
    match Operator.ofText? token.text with
    | some operator => operator.onInts left.exact right.exact
    | none => 0

/-- The subterms in the order of evaluation: each after its operands, which go from left to
right. -/
def postorder : Term → List Term
  | .literal token => [.literal token]
  | .keyword token operand => operand.postorder ++ [.keyword token operand]
  | .operation token left right =>
    left.postorder ++ (right.postorder ++ [.operation token left right])

/-- An operation whose exact value is no word. -/
def Exceeds : Term → Bool
  | .operation token left right => ¬ Fits (operation token left right).exact
  | .literal _ | .keyword _ _ => false

theorem mem_postorder {term node : Term} : node ∈ term.postorder ↔ node ∈ term.subterms := by
  induction term with
  | literal token => rfl
  | keyword token operand ih => simp [postorder, subterms, ih, or_comm]
  | operation token left right ihl ihr =>
    simp only [postorder, subterms, List.mem_append, List.mem_cons, List.not_mem_nil, or_false, ihl,
      ihr]
    tauto

theorem find?_exceeds_eq_none {term : Term} :
    term.postorder.find? Exceeds = none ↔
      ∀ token left right, operation token left right ∈ term.subterms →
        Fits (operation token left right).exact := by
  rw [List.find?_eq_none]
  constructor
  · intro none token left right mem
    simpa [Exceeds] using none _ (mem_postorder.mpr mem)
  · intro fits node mem
    cases node with
    | literal token => simp [Exceeds]
    | keyword token operand => simp [Exceeds]
    | operation token left right => simp [Exceeds, fits token left right (mem_postorder.mp mem)]

/-! ## Against exact integers -/

theorem literalValue_of_supported {token : Token} (supported : (literal token).Supported) :
    ∃ v, literalValue token.text token.offset = .ok v ∧ v.toInt = (literal token).exact := by
  obtain ⟨z, numeral, fits⟩ := supported
  refine ⟨Int64.ofInt z, ?_, ?_⟩
  · simp [literalValue, Decimal.int64OfText?, numeral, fits]
  · rw [Decimal.toInt_ofInt fits, exact, numeral, Option.getD_some]

theorem operationValue_checked {token : Token} {operator : Operator} {a b : Int64}
    (known : Operator.ofText? token.text = some operator) :
    operationValue .checked token a b =
      if Fits (operator.onInts a.toInt b.toInt)
      then .ok (Int64.ofInt (operator.onInts a.toInt b.toInt))
      else .error (.overflow token.offset) := by
  simp only [operationValue, known, Operator.onWords_eq_ofInt, Operator.overflows, true_and,
    decide_eq_true_eq]
  split_ifs <;> rfl

/-- An operation on exact operands is exact or overflows. -/
theorem value_checked_operation {token : Token} {left right : Term} {operator : Operator}
    {a b : Int64}
    (known : Operator.ofText? token.text = some operator)
    (first : left.value .checked = .ok a) (toIntLeft : a.toInt = left.exact)
    (second : right.value .checked = .ok b) (toIntRight : b.toInt = right.exact) :
    (operation token left right).value .checked =
      if Fits (operation token left right).exact
      then .ok (Int64.ofInt (operation token left right).exact)
      else .error (.overflow token.offset) := by
  have total : (operation token left right).exact = operator.onInts left.exact right.exact := by
    rw [exact, known]
  rw [value_operation_of_ok first second, operationValue_checked known, toIntLeft, toIntRight,
    total]

/-- Checked evaluation of a supported term stops at the first operation that exceeds a word, and
gives the exact value if none does. -/
theorem value_checked {term : Term} (supported : term.Supported) :
    (∀ node, term.postorder.find? Exceeds = some node →
      term.value .checked = .error (.overflow node.token.offset)) ∧
    (term.postorder.find? Exceeds = none →
      ∃ v, term.value .checked = .ok v ∧ v.toInt = term.exact) := by
  induction term with
  | literal token =>
    refine ⟨fun node found => ?_, fun _ => literalValue_of_supported supported⟩
    simp [postorder, Exceeds] at found
  | keyword token operand ih =>
    obtain ⟨simplify, supported⟩ := supported
    have first : (keyword token operand).postorder.find? Exceeds =
        operand.postorder.find? Exceeds := by
      simp [postorder, List.find?_append, Exceeds]
    rw [first, value_simplify simplify]
    exact ih supported
  | operation token left right ihl ihr =>
    obtain ⟨known, supportedLeft, supportedRight⟩ := supported
    obtain ⟨operator, known⟩ := Option.isSome_iff_exists.mp known
    obtain ⟨stopsLeft, givesLeft⟩ := ihl supportedLeft
    obtain ⟨stopsRight, givesRight⟩ := ihr supportedRight
    simp only [postorder, List.find?_append, List.find?_singleton]
    cases foundLeft : left.postorder.find? Exceeds with
    | some node =>
      rw [value_operation_of_first (stopsLeft node foundLeft)]
      simp
    | none =>
      obtain ⟨a, first, toIntLeft⟩ := givesLeft foundLeft
      cases foundRight : right.postorder.find? Exceeds with
      | some node =>
        rw [value_operation_of_second first (stopsRight node foundRight)]
        simp
      | none =>
        obtain ⟨b, second, toIntRight⟩ := givesRight foundRight
        rw [value_checked_operation known first toIntLeft second toIntRight]
        by_cases fits : Fits (operation token left right).exact
        · simp [Exceeds, fits, Decimal.toInt_ofInt fits]
        · simp [Exceeds, fits, Term.token]

/-! ## Against wrapping evaluation -/

/-- Wrapping evaluation gives every supported term its exact value, wrapped around once. -/
theorem value_wrapping {term : Term} (supported : term.Supported) :
    term.value .wrapping = .ok (Int64.ofInt term.exact) := by
  induction term with
  | literal token =>
    obtain ⟨v, result, toInt⟩ := literalValue_of_supported supported
    rw [value, result, ← toInt, Int64.ofInt_toInt]
  | keyword token operand ih =>
    obtain ⟨simplify, supported⟩ := supported
    rw [value_simplify simplify, ih supported, exact]
  | operation token left right ihl ihr =>
    obtain ⟨known, supportedLeft, supportedRight⟩ := supported
    obtain ⟨operator, known⟩ := Option.isSome_iff_exists.mp known
    have total : (operation token left right).exact = operator.onInts left.exact right.exact := by
      rw [exact, known]
    rw [value_operation_of_ok (ihl supportedLeft) (ihr supportedRight), total,
      ← operator.onWords_ofInt]
    simp [operationValue, known]

theorem operationValue_modes (token : Token) (a b : Int64) :
    operationValue .checked token a b = operationValue .wrapping token a b ∨
      operationValue .checked token a b = .error (.overflow token.offset) := by
  cases known : Operator.ofText? token.text with
  | none => simp [operationValue, known]
  | some operator =>
    by_cases overflows : operator.overflows a b = true
    · simp [operationValue, known, overflows]
    · simp [operationValue, known, overflows]

/-- The two ways of evaluation differ only where the checked one reports an overflow. -/
theorem value_modes (term : Term) :
    term.value .checked = term.value .wrapping ∨
      ∃ offset, term.value .checked = .error (.overflow offset) := by
  induction term with
  | literal token => exact .inl rfl
  | keyword token operand ih =>
    rcases ih with same | ⟨offset, overflow⟩
    · exact .inl (by rw [value, value, same])
    · exact .inr ⟨offset, value_keyword_of_error overflow⟩
  | operation token left right ihl ihr =>
    rcases ihl with sameLeft | ⟨offset, overflow⟩
    · cases first : left.value .wrapping with
      | error error =>
        rw [value_operation_of_first first, value_operation_of_first (sameLeft.trans first)]
        exact .inl rfl
      | ok a =>
        rcases ihr with sameRight | ⟨offset, overflow⟩
        · cases second : right.value .wrapping with
          | error error =>
            rw [value_operation_of_second first second,
              value_operation_of_second (sameLeft.trans first) (sameRight.trans second)]
            exact .inl rfl
          | ok b =>
            rw [value_operation_of_ok first second,
              value_operation_of_ok (sameLeft.trans first) (sameRight.trans second)]
            exact (operationValue_modes token a b).imp_right fun overflow => ⟨_, overflow⟩
        · exact .inr ⟨offset, value_operation_of_second (sameLeft.trans first) overflow⟩
    · exact .inr ⟨offset, value_operation_of_first overflow⟩

end Term

end PrefixArith
