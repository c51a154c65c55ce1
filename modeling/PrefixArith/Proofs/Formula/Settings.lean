import PrefixArith.Formula.Settings
import PrefixArith.Proofs.Binary64.Text

/-!
# What the refusal of settings tells

Settings are refused with a message on the range or on the probability. The message holds the
refused values in full, so it determines them (`SettingsError.message_injective`).
-/
namespace PrefixArith.Formula

/-- No point stands in the text of a word. -/
theorem point_notMem_ofInt64 (v : Int64) : '.' ∉ (Decimal.ofInt64 v).toList := by
  intro mem
  obtain ⟨digits, inside, written | written⟩ := Decimal.ofInt64_eq_ofList v
  · rw [written, String.toList_ofList] at mem
    exact absurd (inside.2 '.' mem) (by decide)
  · rw [written, String.toList_ofList, List.mem_cons] at mem
    rcases mem with sign | mem
    · exact absurd sign (by decide)
    · exact absurd (inside.2 '.' mem) (by decide)

/-- The first point ends the text of a word. -/
theorem eq_of_ofInt64_point {v w : Int64} {after after' : List Char}
    (same : (Decimal.ofInt64 v).toList ++ '.' :: after =
      (Decimal.ofInt64 w).toList ++ '.' :: after') :
    v = w ∧ after = after' := by
  have chars : (Decimal.ofInt64 v).toList = (Decimal.ofInt64 w).toList := by
    have cut := congrArg (List.takeWhile (· ≠ '.')) same
    have plain (v : Int64) : ∀ c ∈ (Decimal.ofInt64 v).toList, decide (c ≠ '.') = true := by
      intro c mem
      refine decide_eq_true fun point => ?_
      exact point_notMem_ofInt64 v (point ▸ mem)
    rwa [List.takeWhile_append_of_pos (plain v), List.takeWhile_append_of_pos (plain w),
      List.takeWhile_cons_of_neg (by decide), List.takeWhile_cons_of_neg (by decide),
      List.append_nil, List.append_nil] at cut
  rw [chars, List.append_cancel_left_eq, List.cons.injEq] at same
  exact ⟨Decimal.ofInt64_injective (String.toList_injective chars), same.2⟩

/-- A refused probability is a number of the format. -/
def SettingsError.Formed : SettingsError → Prop
  | .emptyRange _ _ => True
  | .badNesting nesting => nesting.Formed

namespace SettingsError

theorem toList_message_emptyRange (least greatest : Int64) :
    (emptyRange least greatest).message.toList =
      "Literal range ".toList ++ ((Decimal.ofInt64 least).toList ++ ("..=".toList ++
        ((Decimal.ofInt64 greatest).toList ++ " is empty.".toList))) := by
  change ("Literal range " ++ Decimal.ofInt64 least ++ "..=" ++ Decimal.ofInt64 greatest ++
    " is empty.").toList = _
  simp only [String.toList_append, List.append_assoc]

theorem toList_message_badNesting (nesting : Binary64) :
    (badNesting nesting).message.toList =
      "Nesting probability ".toList ++ (nesting.text.toList ++
        " must lie between 0 and 1.".toList) := by
  change ("Nesting probability " ++ nesting.text ++ " must lie between 0 and 1.").toList = _
  rw [String.toList_append, String.toList_append, List.append_assoc]

/-- The two messages begin differently. -/
theorem message_emptyRange_ne_badNesting (least greatest : Int64) (nesting : Binary64) :
    (emptyRange least greatest).message ≠ (badNesting nesting).message := by
  intro same
  have chars := congrArg String.toList same
  rw [toList_message_emptyRange, toList_message_badNesting] at chars
  simp at chars

/-- The message of a refusal determines what is refused. -/
theorem message_injective {first second : SettingsError} (formed : first.Formed)
    (formed' : second.Formed) (same : first.message = second.message) : first = second := by
  cases first with
  | emptyRange least greatest =>
    cases second with
    | emptyRange least' greatest' =>
      have chars := congrArg String.toList same
      rw [toList_message_emptyRange, toList_message_emptyRange, List.append_cancel_left_eq] at chars
      obtain ⟨low, rest⟩ := eq_of_ofInt64_point chars
      have high := String.toList_injective (List.append_cancel_right (List.append_cancel_left rest))
      rw [low, Decimal.ofInt64_injective high]
    | badNesting nesting => exact absurd same (message_emptyRange_ne_badNesting _ _ _)
  | badNesting nesting =>
    cases second with
    | emptyRange least greatest => exact absurd same.symm (message_emptyRange_ne_badNesting _ _ _)
    | badNesting nesting' =>
      have chars := congrArg String.toList same
      rw [toList_message_badNesting, toList_message_badNesting, List.append_cancel_left_eq] at chars
      have text := String.toList_injective (List.append_cancel_right chars)
      rw [Binary64.text_injective formed formed' text]

end SettingsError

end PrefixArith.Formula
