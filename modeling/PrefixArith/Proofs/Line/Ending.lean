import PrefixArith.Proofs.Line.Completion
import PrefixArith.Proofs.Line.Relocation
import PrefixArith.Proofs.Token.Separators

/-!
# The end of a line

Where a line ends only matters if it lacks an operand, since nothing but that fault names the end. A
carriage return in the end belongs to no token, so it changes no answer but such a one
(`answer?_append_return`).
-/
namespace PrefixArith

/-- The same tokens to another end are read alike, or an operand is missing at each end. -/
theorem Term.ofTokens_end (tokens : List Token) (endOffset other : Nat) :
    ofTokens tokens other = ofTokens tokens endOffset ∨
      ofTokens tokens endOffset = .error (.missingOperand endOffset) ∧
        ofTokens tokens other = .error (.missingOperand other) := by
  have same {a : Nat} (b : Nat) (decided : ofTokens tokens a ≠ .error (.missingOperand a)) :
      ofTokens tokens b = ofTokens tokens a := by
    have more := ofTokens_append decided b []
    rwa [List.append_nil] at more
  by_cases lacking : ofTokens tokens endOffset = .error (.missingOperand endOffset)
  · by_cases lacking' : ofTokens tokens other = .error (.missingOperand other)
    · exact .inr ⟨lacking, lacking'⟩
    · exact .inl (same endOffset lacking').symm
  · exact .inl (same other lacking)

/-- Separators in the end belong to no token. -/
theorem Token.scan_append_separators (line : String) {run : String}
    (separators : Separators run.toList) : scan (line ++ run) = scan line := by
  have stops : (Place.opening.behind line.toList).run run.toList = [] := by
    rw [← List.append_nil run.toList]
    exact separators.run_append []
  rw [scan, String.toList_append, scanFrom_append stops, scanFrom_of_separators separators.2,
    List.append_nil, scan]

namespace Line
open Token (scan)

/-- A carriage return in the end changes no answer, but that an operand is missing one byte
later. -/
theorem answer?_append_return (mode : Overflow) (line : String) :
    answer? mode (line ++ "\r") = answer? mode line ∨
      answer? mode line = some (.fault (.reading (.missingOperand line.utf8ByteSize))) ∧
        answer? mode (line ++ "\r") =
          some (.fault (.reading (.missingOperand (line.utf8ByteSize + 1)))) := by
  have scanned : scan (line ++ "\r") = scan line := Token.scan_append_separators line (by decide)
  have size : (line ++ "\r").utf8ByteSize = line.utf8ByteSize + 1 := String.utf8ByteSize_append
  rw [answer?_eq, answer?_eq, scanned, size]
  by_cases blank : scan line = []
  · rw [blank]
    exact .inl rfl
  · rw [answerTo, if_neg blank, answerTo, if_neg blank]
    rcases Term.ofTokens_end (scan line) line.utf8ByteSize (line.utf8ByteSize + 1) with
      same | ⟨lacking, lacking'⟩
    · exact .inl (by rw [same])
    · rw [lacking, lacking']
      exact .inr ⟨rfl, rfl⟩

end Line

end PrefixArith
