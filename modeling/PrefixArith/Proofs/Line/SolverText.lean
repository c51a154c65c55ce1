import PrefixArith.Proofs.Line.Answer
import PrefixArith.Proofs.Term.Printing
import PrefixArith.SolverText

/-!
# Solver notation as input

Solver notation writes every word in a way of its own (`SolverText.eq_of_ofInt64_eq`). As a line,
the digits of a nonnegative word are that word again. What is written for a negative one opens with
a minus sign that subtracts, and there is no second operand to subtract.
-/
namespace PrefixArith

namespace Decimal

theorem eq_of_ofNat_eq {m n : Nat} (same : ofNat m = ofNat n) : m = n := by
  have digits : Nat.toDigits 10 m = Nat.toDigits 10 n := by
    simpa [ofNat] using congrArg String.toList same
  rw [← natOfDigits_toDigits m, digits, natOfDigits_toDigits]

theorem canonical_ofNat (n : Nat) : Canonical n (ofNat n) := by
  have written : ofInt n = ofNat n := by
    rw [ofInt, if_neg (Int.not_lt.mpr (Int.natCast_nonneg n)), Int.natAbs_natCast]
  rw [← written]
  exact canonical_ofInt n

end Decimal

namespace SolverText
open Decimal (ofNat)

variable {v w : Int64}

/-- The magnitude of the least word is a number of 64 binary digits as well. -/
theorem magnitude_lt (v : Int64) : magnitude v < UInt64.size := by
  have low := v.le_toInt
  have high := v.toInt_lt
  have size : UInt64.size = 18446744073709551616 := rfl
  unfold magnitude
  omega

theorem ofInt64_of_nonneg (sign : 0 ≤ v.toInt) : ofInt64 v = ofNat (magnitude v) := by
  rw [ofInt64, if_neg (Int.not_lt.mpr sign)]

/-- What is not negative is written in plain decimal. -/
theorem ofInt64_eq_decimal (sign : 0 ≤ v.toInt) : ofInt64 v = Decimal.ofInt64 v := by
  rw [ofInt64_of_nonneg sign, Decimal.ofInt64, Decimal.ofInt, if_neg (Int.not_lt.mpr sign),
    magnitude]

theorem ofInt64_of_neg (sign : v.toInt < 0) : ofInt64 v = "(- " ++ ofNat (magnitude v) ++ ")" := by
  rw [ofInt64, if_pos sign]

/-- Only what is written for a negative word begins with a parenthesis. -/
theorem head?_ofInt64 (v : Int64) : (ofInt64 v).toList.head? = some '(' ↔ v.toInt < 0 := by
  by_cases sign : v.toInt < 0
  · simp [ofInt64_of_neg sign, sign]
  · rw [ofInt64_of_nonneg (Int.not_lt.mp sign), ofNat, String.toList_ofList]
    refine iff_of_false (fun paren => ?_) sign
    have digit := (Decimal.digits_toDigits (magnitude v)).2 '(' (List.mem_of_mem_head? paren)
    simp at digit

/-- Distinct words are written differently. -/
theorem eq_of_ofInt64_eq (same : ofInt64 v = ofInt64 w) : v = w := by
  have signs : v.toInt < 0 ↔ w.toInt < 0 := by rw [← head?_ofInt64, ← head?_ofInt64, same]
  have magnitudes : magnitude v = magnitude w := by
    by_cases sign : v.toInt < 0
    · rw [ofInt64_of_neg sign, ofInt64_of_neg (signs.mp sign)] at same
      simp only [String.append_left_inj, String.append_right_inj] at same
      exact Decimal.eq_of_ofNat_eq same
    · rw [ofInt64_of_nonneg (Int.not_lt.mp sign),
        ofInt64_of_nonneg (Int.not_lt.mp (signs.not.mp sign))] at same
      exact Decimal.eq_of_ofNat_eq same
  unfold magnitude at magnitudes
  exact Int64.toInt_inj.mp (by omega)

end SolverText

namespace Term
open Token (significant)

/-- An operator with one operand only lacks the other. -/
theorem ofTokens_of_single_operand {tokens : List Token} {operator operand : Token}
    (listed : significant tokens = [operator, operand]) (applies : operator.kind = .operator)
    (number : operand.kind = .number) (endOffset : Nat) :
    ofTokens tokens endOffset = .error (.missingOperand endOffset) := by
  obtain ⟨more, found, listed⟩ := Token.dropWhile_eq_cons listed
  obtain ⟨rest, found', listed⟩ := Token.dropWhile_eq_cons listed
  have none : rest.dropWhile Token.isParen = [] := by
    cases left : rest.dropWhile Token.isParen with
    | nil => rfl
    | cons token others =>
      rw [(Token.significant_eq_cons left).2] at listed
      cases listed
  have fails : Reads endOffset nestingLimit tokens (.error (.missingOperand endOffset)) [] :=
    .secondFails found applies (.number found' number) (.missing none)
  exact congrArg Prod.fst fails.readWithin_eq

end Term

namespace Line
open Decimal (ofNat)
open Token (scan scanFrom significant)

/-- A number alone in a line is evaluated from its whole text. -/
theorem answer?_of_number {text : String} (spelled : Token.Spelled ⟨.number, text, 0⟩)
    (unsigned : text.toList.head? ≠ some '-') (mode : Overflow) :
    answer? mode text = some (.ofValue (Term.literalValue text 0)) := by
  let term : Term := .literal ⟨.number, text, 0⟩
  have formed : term.Formed := rfl
  have spelled' : ∀ token ∈ term.tokens, token.Spelled := by simpa [term] using spelled
  have success : Term.ofTokens (scan text) text.utf8ByteSize = .ok term :=
    Term.ofTokens_text formed (Nat.zero_le _) spelled' unsigned _
  rw [answer?_of_read success]
  rfl

/-- Digits alone are read as the word that they stand for. -/
theorem answer?_solverText_of_nonneg {v : Int64} (sign : 0 ≤ v.toInt) (mode : Overflow) :
    answer? mode (SolverText.ofInt64 v) = some (.value v) := by
  have inside := Decimal.digits_toDigits (SolverText.magnitude v)
  have spelled : Token.Spelled ⟨.number, SolverText.ofInt64 v, 0⟩ :=
    ⟨_, inside.2, .inr ⟨inside.1, SolverText.ofInt64_of_nonneg sign⟩⟩
  have unsigned : (SolverText.ofInt64 v).toList.head? ≠ some '-' := by
    rw [SolverText.ofInt64_of_nonneg sign, ofNat, String.toList_ofList]
    intro minus
    have digit := inside.2 '-' (List.mem_of_mem_head? minus)
    simp at digit
  rw [answer?_of_number spelled unsigned, SolverText.ofInt64_eq_decimal sign, Term.literalValue,
    Decimal.int64OfText?_ofInt64]
  rfl

/-- Behind the parenthesis the minus sign subtracts, and the magnitude is its first operand. -/
theorem significant_scan_negation (n : Nat) :
    significant (scan ("(- " ++ ofNat n ++ ")")) =
      [⟨.operator, "-", 1⟩, ⟨.number, ofNat n, 3⟩] := by
  let minus : Token := ⟨.operator, Operator.subtract.text, 1⟩
  have inside := Decimal.digits_toDigits n
  have written : ("(- " ++ ofNat n ++ ")").toList =
      '(' :: (minus.text.toList ++ ' ' :: ((ofNat n).toList ++ [')'])) := by
    simp [minus, Operator.text]
  have number : scanFrom .elsewhere 3 (ofNat n).toList = [⟨.number, ofNat n, 3⟩] := by
    rw [ofNat, String.toList_ofList]
    exact Term.scanFrom_digits inside.1 inside.2 3
  have places : 0 + minus.text.utf8ByteSize + 2 = 3 := by decide
  rw [scan, written, Token.significant_scanFrom_application (Token.spelled_operator .subtract 1)
    (.inl rfl), places, Token.scanFrom_text_append Token.stops_rparen, Token.significant_append,
    Token.significant_scanFrom_rparen, List.append_nil, number]
  rfl

/-- What is written for a negative word lacks an operand. -/
theorem answer?_negation (n : Nat) (mode : Overflow) :
    answer? mode ("(- " ++ ofNat n ++ ")") =
      some (.fault (.reading (.missingOperand ("(- " ++ ofNat n ++ ")").utf8ByteSize))) := by
  have listed := significant_scan_negation n
  refine answer?_of_unread ?_ (Term.ofTokens_of_single_operand listed rfl rfl _)
  intro blank
  rw [blank] at listed
  cases listed

/-- Solver notation tells words apart, and says which they are. A word that is not negative is
written in canonical decimal, and is the value of that text, in both modes. For a negative word the
magnitude, which an unsigned word holds even for the least one, is written behind a minus sign; read
as a line, the sign is an operator, and the line ends where its second operand has to follow. -/
theorem solver_text_is_faithful (v : Int64) (mode : Overflow) :
    (∀ w, SolverText.ofInt64 w = SolverText.ofInt64 v → w = v) ∧
    (0 ≤ v.toInt → Decimal.Canonical v.toInt (SolverText.ofInt64 v) ∧
      answer? mode (SolverText.ofInt64 v) = some (.value v)) ∧
    (v.toInt < 0 → ∃ digits, Decimal.Canonical (-v.toInt) digits ∧
      (SolverText.magnitude v : Int) = -v.toInt ∧ SolverText.magnitude v < 18446744073709551616 ∧
      SolverText.ofInt64 v = "(- " ++ digits ++ ")" ∧
      significant (scan (SolverText.ofInt64 v)) = [⟨.operator, "-", 1⟩, ⟨.number, digits, 3⟩] ∧
      answer? mode (SolverText.ofInt64 v) =
        some (.fault (.reading (.missingOperand (SolverText.ofInt64 v).utf8ByteSize)))) := by
  refine ⟨fun w => SolverText.eq_of_ofInt64_eq, fun sign => ⟨?_, ?_⟩, fun sign => ?_⟩
  · rw [SolverText.ofInt64_eq_decimal sign]
    exact Decimal.canonical_ofInt v.toInt
  · exact answer?_solverText_of_nonneg sign mode
  · have magnitude : (SolverText.magnitude v : Int) = -v.toInt := by
      rw [SolverText.magnitude]
      omega
    refine ⟨ofNat (SolverText.magnitude v), ?_, magnitude, SolverText.magnitude_lt v, ?_⟩
    · rw [← magnitude]
      exact Decimal.canonical_ofNat _
    · rw [SolverText.ofInt64_of_neg sign]
      exact ⟨rfl, significant_scan_negation _, answer?_negation _ mode⟩

/-- The magnitude of the least word is no signed word, and its text is neither a literal nor an
operation. -/
theorem solver_text_is_faithful_of_least :
    (0 ≤ Int64.maxValue.toInt ∧
      answer? .checked "9223372036854775807" = some (.value Int64.maxValue)) ∧
    (Int64.minValue.toInt < 0 ∧
      (SolverText.magnitude Int64.minValue : Int) = -Int64.minValue.toInt ∧
      answer? .wrapping "(- 9223372036854775808)" =
        some (.fault (.reading (.missingOperand 23)))) := by
  have greatest : SolverText.ofInt64 Int64.maxValue = "9223372036854775807" := by decide +kernel
  have least : SolverText.ofInt64 Int64.minValue = "(- 9223372036854775808)" := by decide +kernel
  obtain ⟨-, positive, -⟩ := solver_text_is_faithful Int64.maxValue .checked
  obtain ⟨-, -, negative⟩ := solver_text_is_faithful Int64.minValue .wrapping
  have sign : 0 ≤ Int64.maxValue.toInt := by decide
  have sign' : Int64.minValue.toInt < 0 := by decide
  obtain ⟨-, value⟩ := positive sign
  obtain ⟨digits, -, magnitude, -, -, -, fault⟩ := negative sign'
  rw [greatest] at value
  rw [least] at fault
  exact ⟨⟨sign, value⟩, sign', magnitude, fault⟩

end Line

end PrefixArith
