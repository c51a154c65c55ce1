import Mathlib.Data.List.Forall2
import PrefixArith.Proofs.Line.Ending
import PrefixArith.Proofs.Script.Lines
import PrefixArith.Proofs.Text.LineEnds

/-!
# Scripts with other line ends

It makes no difference whether the lines of a script end with line feeds or with carriage returns
and line feeds, and the last one may have no end. Only where a line has a carriage return of its own
before its end does another one lengthen it, and only the end that a missing operand names can tell.
-/
namespace PrefixArith.Script
open Text (withReturns byteSize)

section Ends
variable {mode : Overflow}

theorem outcomes_eq_filterMap (mode : Overflow) (source : String) :
    outcomes mode source = ((Text.linesBy '\n' '\r' source.toList).zipIdx 1).filterMap fun entry =>
      (Line.answer? mode (String.ofList entry.1)).map (Outcome.mk entry.2) := by
  rw [outcomes_eq, outcomesFrom, Text.lines_eq, List.zipIdx_map, List.filterMap_map]
  rfl

/-- An empty line behind the others adds nothing. -/
theorem outcomesFrom_append_empty (number : Nat) (lines : List String) :
    outcomesFrom mode number (lines ++ [""]) = outcomesFrom mode number lines := by
  have blank : Line.answer? mode "" = none := Line.answer?_of_scan_nil (by decide)
  rw [outcomesFrom_append, outcomesFrom_cons, blank, outcomesFrom_nil, Option.map_none,
    Option.toList_none, List.append_nil, List.append_nil]

/-- The same line has the same answer, or both miss an operand at their ends, the second one behind
the carriage return that the line has had in the source. -/
def Outcome.SameButEnd (source : String) (outcome other : Outcome) : Prop :=
  other.line = outcome.line ∧
    (other.answer = outcome.answer ∨ ∃ n line,
      (source.toList.splitOn '\n')[n]? = some (line ++ ['\r']) ∧ outcome.line = n + 1 ∧
        outcome.answer = .fault (.reading (.missingOperand (byteSize line))) ∧
        other.answer = .fault (.reading (.missingOperand (byteSize line + 1))))

/-- The same answer or none gives the same outcome or none. -/
theorem Outcome.sameButEnd_self (source : String) (number : Nat) (answer? : Option Line.Answer) :
    Option.Rel (Outcome.SameButEnd source) (answer?.map (Outcome.mk number))
      (answer?.map (Outcome.mk number)) := by
  cases answer? with
  | none => exact .none
  | some answer => exact .some ⟨rfl, .inl rfl⟩

theorem outcomes_withReturns (mode : Overflow) (source : String) :
    List.Forall₂ (Outcome.SameButEnd source) (outcomes mode source)
      (outcomes mode (withReturns source)) := by
  rw [outcomes_eq_filterMap, outcomes_eq_filterMap, withReturns, String.toList_ofList]
  refine List.rel_filterMap ?_ (Text.forall₂_withMarks (by decide) source.toList 1)
  rintro ⟨line, number⟩ _ (rfl | ⟨rfl, mem⟩)
  · exact Outcome.sameButEnd_self source number _
  · obtain ⟨later, found⟩ := List.mk_mem_zipIdx_iff_le_and_getElem?_sub.mp mem
    have carried : String.ofList (line ++ ['\r']) = String.ofList line ++ "\r" :=
      String.ofList_append
    simp only
    rw [carried]
    rcases Line.answer?_append_return mode (String.ofList line) with same | ⟨lacking, lacking'⟩
    · rw [same]
      exact Outcome.sameButEnd_self source number _
    · have place : number = number - 1 + 1 := by omega
      rw [Text.utf8ByteSize_ofList] at lacking lacking'
      rw [lacking, lacking']
      exact .some ⟨rfl, .inr ⟨_, line, found, place, rfl, rfl⟩⟩

end Ends

/-- A script without carriage returns has the same outcomes with one before every line feed, and a
script that does not end with one has the same outcomes with a line feed behind it. With a carriage
return before every line feed, any script keeps its outcomes, but that an operand is missing one
byte later on a line that has ended with a carriage return. -/
theorem line_ends_do_not_matter (mode : Overflow) :
    (∀ source, '\r' ∉ source.toList → outcomes mode (withReturns source) = outcomes mode source) ∧
    (∀ source, source.toList.getLast? ≠ some '\r' →
      outcomes mode (source ++ "\n") = outcomes mode source) ∧
    ∀ source, List.Forall₂ (fun outcome other => other.line = outcome.line ∧
        (other.answer = outcome.answer ∨ ∃ n line,
          (source.toList.splitOn '\n')[n]? = some (line ++ ['\r']) ∧ outcome.line = n + 1 ∧
            outcome.answer = .fault (.reading (.missingOperand (byteSize line))) ∧
            other.answer = .fault (.reading (.missingOperand (byteSize line + 1)))))
      (outcomes mode source) (outcomes mode (withReturns source)) := by
  refine ⟨?_, ?_, outcomes_withReturns mode⟩
  · intro source unmarked
    rw [outcomes_eq, outcomes_eq, Text.lines_withReturns unmarked]
  · intro source unmarked
    rw [outcomes_eq, outcomes_eq]
    rcases Text.lines_append_feed unmarked with same | same
    · rw [same]
    · rw [same, outcomesFrom_append_empty]

/-- The first line lacks an operand. The first carriage return belongs to the end of that line, the
second one to the line itself. -/
theorem line_ends_do_not_matter_of_lacking :
    let source := "(+ é 1\n(* 2 3)"
    let carried := "(+ é 1\r\n(* 2 3)"
    let outcomesTo (size : Nat) : List Outcome :=
      [⟨1, .fault (.reading (.missingOperand size))⟩, ⟨2, .value 6⟩]
    ('\r' ∉ source.toList ∧ withReturns source = carried ∧ carried.toList.getLast? ≠ some '\r') ∧
      outcomes .checked source = outcomesTo 7 ∧ outcomes .checked carried = outcomesTo 7 ∧
      outcomes .checked (carried ++ "\n") = outcomesTo 7 ∧
      outcomes .checked (withReturns carried) = outcomesTo 8 := by
  intro source carried outcomesTo
  obtain ⟨returns, feed, -⟩ := line_ends_do_not_matter .checked
  have unmarked : '\r' ∉ source.toList := by decide
  have same : withReturns source = carried := by decide
  have unmarked' : carried.toList.getLast? ≠ some '\r' := by decide
  have first : outcomes .checked source = outcomesTo 7 := by decide +kernel
  have second : outcomes .checked carried = outcomesTo 7 := by
    rw [← same, returns source unmarked, first]
  exact ⟨⟨unmarked, same, unmarked'⟩, first, second, (feed carried unmarked').trans second,
    by decide +kernel⟩

end PrefixArith.Script
