import PrefixArith.Proofs.Line.Answer
import PrefixArith.Proofs.Term.Erasure
import PrefixArith.Proofs.Token.Overwriting

/-!
# Lines without some of their `simplify`

A keyword that is overwritten with spaces leaves its operand behind, at the same place. So a line
that is read as a term stays one, and since `simplify` returns its operand, the answer stays the
same whichever of its occurrences are overwritten, in the term or behind it
(`answer?_overwrite_simplify`).
-/
namespace PrefixArith.Line
open Text (overwrite)
open Token (scan significant covers)

section Keywords
variable {line : String} {term : Term} {chosen : List Token}

/-- The tokens of the line with keywords overwritten are those that are not. -/
theorem scan_overwrite_keywords
    (keywords : ∀ token ∈ chosen, token ∈ scan line ∧ token.kind = .keyword) :
    scan (overwrite (covers chosen) line) = (scan line).filter fun token => token ∉ chosen := by
  have scanned : ∀ token ∈ chosen, token ∈ scan line := fun token mem => (keywords token mem).1
  rw [Token.scan_overwrite (Token.removes_keywords keywords)]
  apply List.filter_congr
  intro token mem
  rw [Bool.eq_iff_iff, Bool.not_eq_true', ← Bool.not_eq_true, decide_eq_true_eq,
    Token.covers_iff_mem scanned mem (Nat.le_refl _) (Token.offset_lt_finish mem)]

/-- The term is read without the keywords that are overwritten. -/
theorem ofTokens_overwrite_keywords
    (keywords : ∀ token ∈ chosen, token ∈ scan line ∧ token.kind = .keyword)
    (success : Term.ofTokens (scan line) line.utf8ByteSize = .ok term) (endOffset : Nat) :
    Term.ofTokens (scan (overwrite (covers chosen) line)) endOffset =
      .ok (term.erase fun token => token ∈ chosen) := by
  obtain ⟨formed, within, more, listed⟩ := Term.ofTokens_eq_ok_iff.mp success
  have kinds : ∀ token ∈ term.tokens, decide (token ∈ chosen) = true → token.kind = .keyword := by
    intro token _ here
    exact (keywords token (of_decide_eq_true here)).2
  refine Term.ofTokens_eq_ok_iff.mpr ⟨Term.formed_erase formed, ?_, ?_⟩
  · exact Nat.le_trans term.nesting_erase_le within
  · rw [scan_overwrite_keywords keywords, significant, List.filter_comm, ← significant, ← listed,
      List.filter_append, Term.tokens_erase formed kinds]
    simp

end Keywords

/-- A line that is read as a term answers the same, offsets included, when any of its keywords
`simplify` are overwritten with spaces. -/
theorem answer?_overwrite_simplify {line : String} {term : Term}
    (success : Term.ofTokens (scan line) line.utf8ByteSize = .ok term) {chosen : List Token}
    (simplify : ∀ token ∈ chosen,
      token ∈ scan line ∧ token.kind = .keyword ∧ token.text = "simplify") (mode : Overflow) :
    answer? mode (overwrite (covers chosen) line) = answer? mode line := by
  have keywords : ∀ token ∈ chosen, token ∈ scan line ∧ token.kind = .keyword := by
    intro token mem
    obtain ⟨scanned, kind, -⟩ := simplify token mem
    exact ⟨scanned, kind⟩
  have texts : ∀ token ∈ term.tokens, decide (token ∈ chosen) = true → token.text = "simplify" := by
    intro token _ here
    exact (simplify token (of_decide_eq_true here)).2.2
  have read :=
    ofTokens_overwrite_keywords keywords success (overwrite (covers chosen) line).utf8ByteSize
  rw [answer?_of_read read, answer?_of_read success, Term.value_erase texts]

/-- Of three occurrences, the first and the one behind the term are overwritten. The second one
stands directly in front of a negative literal that is no word. -/
theorem answer?_overwrite_simplify_of_three :
    let line := "(simplify (+ 1 (simplify-9223372036854775809) simplify"
    let chosen : List Token := [⟨.keyword, "simplify", 1⟩, ⟨.keyword, "simplify", 46⟩]
    (∃ term, Term.ofTokens (scan line) line.utf8ByteSize = .ok term) ∧
      (∀ token ∈ chosen, token ∈ scan line ∧ token.kind = .keyword ∧ token.text = "simplify") ∧
      overwrite (covers chosen) line = "(         (+ 1 (simplify-9223372036854775809)         " ∧
      answer? .wrapping (overwrite (covers chosen) line) =
        some (.fault (.evaluation (.badLiteral "-9223372036854775809" 24))) := by
  intro line chosen
  let sum : Term := .keyword ⟨.keyword, "simplify", 1⟩ (.operation ⟨.operator, "+", 11⟩
    (.literal ⟨.number, "1", 13⟩)
    (.keyword ⟨.keyword, "simplify", 16⟩ (.literal ⟨.number, "-9223372036854775809", 24⟩)))
  have success : Term.ofTokens (scan line) line.utf8ByteSize = .ok sum :=
    Term.ofTokens_eq_ok_iff.mpr ⟨⟨rfl, rfl, rfl, rfl, rfl⟩, by decide, by decide +kernel⟩
  have simplify : ∀ token ∈ chosen,
      token ∈ scan line ∧ token.kind = .keyword ∧ token.text = "simplify" := by
    decide +kernel
  have answer : answer? .wrapping line =
      some (.fault (.evaluation (.badLiteral "-9223372036854775809" 24))) := by
    decide +kernel
  refine ⟨⟨sum, success⟩, simplify, by decide +kernel, ?_⟩
  exact (answer?_overwrite_simplify success simplify .wrapping).trans answer

end PrefixArith.Line
