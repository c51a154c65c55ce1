import PrefixArith.Proofs.Line.Answer
import PrefixArith.Proofs.Term.Evaluation
import PrefixArith.Proofs.Term.Printing

/-!
# Literals as operands

An operand stands where a minus sign signs a number, so the sign and the digits of a literal are one
token there, however many they are. Its value is the integer that it writes, or it is refused as a
whole.
-/
namespace PrefixArith

/-- A literal with zeros before its digits is one number token. -/
theorem Decimal.spelled_withZeros (zeros : Nat) (z : Int) (offset : Nat) :
    Token.Spelled ⟨.number, withZeros zeros (ofInt z), offset⟩ := by
  obtain ⟨digits, inside, ⟨written, -⟩ | ⟨written, -⟩⟩ := withZeros_ofInt zeros z
  · exact ⟨digits, inside.2, .inr ⟨inside.1, written⟩⟩
  · exact ⟨digits, inside.2, .inl written⟩

namespace Line
open Decimal (withZeros ofInt)

/-- A number as the operand of the keyword is evaluated from its whole text. -/
theorem answer?_of_simplified_number {text : String} (spelled : Token.Spelled ⟨.number, text, 10⟩)
    (mode : Overflow) :
    answer? mode ("(simplify " ++ text ++ ")") = some (.ofValue (Term.literalValue text 10)) := by
  let term : Term := .keyword ⟨.keyword, "simplify", 1⟩ (.literal ⟨.number, text, 10⟩)
  have written : term.text = "(simplify " ++ text ++ ")" := by
    simp [term, Term.text]
  have spelled' : ∀ token ∈ term.tokens, token.Spelled := by
    simpa [term] using And.intro (Token.spelled_simplify 1) spelled
  have formed : term.Formed := ⟨rfl, rfl⟩
  have within : 1 ≤ Term.nestingLimit := by decide
  have success : Term.ofTokens (Token.scan term.text) term.text.utf8ByteSize = .ok term :=
    Term.ofTokens_text formed within spelled' id _
  rw [← written, answer?_of_read success, Term.value_simplify rfl]
  rfl

/-- The operand of the keyword is an integer with any number of zeros before its digits. If a word
holds it, the answer is that very integer; otherwise its text is refused as it stands, at its
place. -/
theorem literal_is_read_exactly (z : Int) (zeros : Nat) (mode : Overflow) :
    (-9223372036854775808 ≤ z ∧ z ≤ 9223372036854775807 →
      ∃ v, answer? mode ("(simplify " ++ withZeros zeros (ofInt z) ++ ")") = some (.value v) ∧
        v.toInt = z) ∧
    (z < -9223372036854775808 ∨ 9223372036854775807 < z →
      answer? mode ("(simplify " ++ withZeros zeros (ofInt z) ++ ")") =
        some (.fault (.evaluation (.badLiteral (withZeros zeros (ofInt z)) 10)))) := by
  have answer := answer?_of_simplified_number (Decimal.spelled_withZeros zeros z 10) mode
  have word := Decimal.int64OfText?_of_numeral (Decimal.intOfChars?_withZeros zeros z)
  rw [Term.literalValue, word] at answer
  constructor
  · intro range
    have fits : Decimal.Fits z := Decimal.fits_iff.mpr range
    rw [if_pos fits] at answer
    exact ⟨Int64.ofInt z, answer, Decimal.toInt_ofInt fits⟩
  · intro beyond
    have exceeds : ¬ Decimal.Fits z := by
      rw [Decimal.fits_iff]
      omega
    rw [if_neg exceeds] at answer
    exact answer

/-- The least word keeps its sign behind zeros, and the integer below it is refused with all of
them. -/
theorem literal_is_read_exactly_of_least :
    (∃ v, answer? .checked "(simplify -0009223372036854775808)" = some (.value v) ∧
      v.toInt = -9223372036854775808) ∧
    answer? .wrapping "(simplify -0009223372036854775809)" =
      some (.fault (.evaluation (.badLiteral "-0009223372036854775809" 10))) := by
  have least : withZeros 3 (ofInt (-9223372036854775808)) = "-0009223372036854775808" := by
    decide +kernel
  have below : withZeros 3 (ofInt (-9223372036854775809)) = "-0009223372036854775809" := by
    decide +kernel
  have read := (literal_is_read_exactly (-9223372036854775808) 3 .checked).1 (by decide)
  have refused := (literal_is_read_exactly (-9223372036854775809) 3 .wrapping).2 (.inl (by decide))
  rw [least] at read
  rw [below] at refused
  exact ⟨read, refused⟩

end Line

end PrefixArith
