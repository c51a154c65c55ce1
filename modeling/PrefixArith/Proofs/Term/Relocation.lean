import PrefixArith.Proofs.Term.Evaluation
import PrefixArith.Proofs.Term.Listing

/-!
# Moving a term to other offsets

Offsets only name places. A term whose tokens are moved elsewhere is written the same, nests the
same and has the same value or the same fault at the place moved along (`value_relocate`).
-/
namespace PrefixArith

/-- The same token at another place. -/
def Token.relocate (f : Nat → Nat) (token : Token) : Token :=
  ⟨token.kind, token.text, f token.offset⟩

/-- The same fault at another place. -/
def ReadError.relocate (f : Nat → Nat) : ReadError → ReadError
  | .unexpected text offset => .unexpected text (f offset)
  | .missingOperand offset => .missingOperand (f offset)
  | .tooDeep limit offset => .tooDeep limit (f offset)

/-- The same fault at another place. -/
def EvalError.relocate (f : Nat → Nat) : EvalError → EvalError
  | .unsupported text offset => .unsupported text (f offset)
  | .badLiteral text offset => .badLiteral text (f offset)
  | .overflow offset => .overflow (f offset)

/-- The same fault at another place. -/
def Fault.relocate (f : Nat → Nat) : Fault → Fault
  | .reading error => .reading (error.relocate f)
  | .evaluation error => .evaluation (error.relocate f)

namespace Term

/-- The same term at other places. -/
def relocate (f : Nat → Nat) : Term → Term
  | .literal token => .literal (token.relocate f)
  | .keyword token operand => .keyword (token.relocate f) (operand.relocate f)
  | .operation token left right =>
    .operation (token.relocate f) (left.relocate f) (right.relocate f)

variable {f : Nat → Nat}

@[simp] theorem text_relocate (term : Term) : (term.relocate f).text = term.text := by
  induction term with
  | literal token => rfl
  | keyword token operand ih => rw [relocate, text, text, ih, Token.relocate]
  | operation token left right ihl ihr => rw [relocate, text, text, ihl, ihr, Token.relocate]

@[simp] theorem nesting_relocate (term : Term) : (term.relocate f).nesting = term.nesting := by
  induction term with
  | literal token => rfl
  | keyword token operand ih => rw [relocate, nesting, nesting, ih]
  | operation token left right ihl ihr => rw [relocate, nesting, nesting, ihl, ihr]

@[simp] theorem size_relocate (term : Term) : (term.relocate f).size = term.size := by
  induction term with
  | literal token => rfl
  | keyword token operand ih => rw [relocate, size, size, ih]
  | operation token left right ihl ihr => rw [relocate, size, size, ihl, ihr]

@[simp] theorem formed_relocate {term : Term} : (term.relocate f).Formed ↔ term.Formed := by
  induction term with
  | literal token => rfl
  | keyword token operand ih => exact and_congr_right fun _ => ih
  | operation token left right ihl ihr => exact and_congr_right fun _ => and_congr ihl ihr

theorem tokens_relocate (term : Term) :
    (term.relocate f).tokens = term.tokens.map (Token.relocate f) := by
  induction term with
  | literal token => rfl
  | keyword token operand ih => rw [relocate, tokens_keyword, tokens_keyword, List.map_cons, ih]
  | operation token left right ihl ihr =>
    rw [relocate, tokens_operation, tokens_operation, List.map_cons, List.map_append, ihl, ihr]

/-! ## Values -/

theorem literalValue_relocate (text : String) (offset : Nat) :
    literalValue text (f offset) = (literalValue text offset).mapError (EvalError.relocate f) := by
  unfold literalValue
  cases Decimal.int64OfText? text <;> rfl

theorem keywordValue_relocate (token : Token) (a : Int64) :
    keywordValue (token.relocate f) a = (keywordValue token a).mapError (EvalError.relocate f) := by
  unfold keywordValue Token.relocate
  split <;> rfl

theorem operationValue_relocate (mode : Overflow) (token : Token) (a b : Int64) :
    operationValue mode (token.relocate f) a b =
      (operationValue mode token a b).mapError (EvalError.relocate f) := by
  unfold operationValue Token.relocate
  cases Operator.ofText? token.text with
  | none => rfl
  | some operator =>
    simp only
    split <;> rfl

/-- A moved term has the same value, or the same fault at the place moved along. -/
theorem value_relocate (mode : Overflow) (term : Term) :
    (term.relocate f).value mode = (term.value mode).mapError (EvalError.relocate f) := by
  induction term with
  | literal token => exact literalValue_relocate token.text token.offset
  | keyword token operand ih =>
    cases only : operand.value mode with
    | error error =>
      rw [only] at ih
      rw [relocate, value_keyword_of_error ih, value_keyword_of_error only]
      rfl
    | ok a =>
      rw [only] at ih
      rw [relocate, value_keyword_of_ok ih, value_keyword_of_ok only, keywordValue_relocate]
  | operation token left right ihl ihr =>
    cases first : left.value mode with
    | error error =>
      rw [first] at ihl
      rw [relocate, value_operation_of_first ihl, value_operation_of_first first]
      rfl
    | ok a =>
      rw [first] at ihl
      cases second : right.value mode with
      | error error =>
        rw [second] at ihr
        rw [relocate, value_operation_of_second ihl ihr, value_operation_of_second first second]
        rfl
      | ok b =>
        rw [second] at ihr
        rw [relocate, value_operation_of_ok ihl ihr, value_operation_of_ok first second,
          operationValue_relocate]

/-! ## Terms that differ in their offsets -/

/-- The terms have the same shape, kinds of tokens and texts; only their offsets may differ. -/
def EqUpToOffsets (a b : Term) : Prop := a.relocate (fun _ => 0) = b.relocate (fun _ => 0)

namespace EqUpToOffsets
variable {a b : Term}

theorem text_eq (same : a.EqUpToOffsets b) : a.text = b.text := by
  rw [← text_relocate a, same, text_relocate]

theorem nesting_eq (same : a.EqUpToOffsets b) : a.nesting = b.nesting := by
  rw [← nesting_relocate a, same, nesting_relocate]

theorem size_eq (same : a.EqUpToOffsets b) : a.size = b.size := by
  rw [← size_relocate a, same, size_relocate]

theorem formed_iff (same : a.EqUpToOffsets b) : a.Formed ↔ b.Formed := by
  have moved : (a.relocate fun _ => 0).Formed ↔ (b.relocate fun _ => 0).Formed := by rw [same]
  exact formed_relocate.symm.trans (moved.trans formed_relocate)

theorem value_eq (same : a.EqUpToOffsets b) (mode : Overflow) :
    (a.value mode).mapError (EvalError.relocate fun _ => 0) =
      (b.value mode).mapError (EvalError.relocate fun _ => 0) := by
  rw [← value_relocate, same, value_relocate]

theorem value_eq_ok (same : a.EqUpToOffsets b) {mode : Overflow} {v : Int64}
    (result : b.value mode = .ok v) : a.value mode = .ok v := by
  have moved := same.value_eq mode
  rw [result] at moved
  cases value : a.value mode with
  | ok w =>
    rw [value] at moved
    cases moved
    rfl
  | error error =>
    rw [value] at moved
    cases moved

end EqUpToOffsets

end Term

end PrefixArith
