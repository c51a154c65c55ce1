import Mathlib.Data.List.Forall2
import PrefixArith.Proofs.Line.Answer
import PrefixArith.Script

/-!
# The two ways of evaluation

Checked evaluation is exact integer arithmetic that stops at the first operation without a word for
its result; where it does not stop, wrapping evaluation gives the same. So the outcomes of a script
are the same in both, except on the lines where the checked one reports an overflow.
-/
namespace PrefixArith.Script
open Line (Answer)

/-- Two outcomes of one line, the second with the same answer or an overflow. -/
def Outcome.AgreesOrOverflows (wrapped checked : Outcome) : Prop :=
  wrapped.line = checked.line ∧ wrapped.answer.AgreesOrOverflows checked.answer

theorem outcomes_modes (source : String) :
    List.Forall₂ Outcome.AgreesOrOverflows (outcomes .wrapping source)
      (outcomes .checked source) := by
  have numbered : List.Forall₂ Eq ((Text.lines source).zipIdx 1) ((Text.lines source).zipIdx 1) :=
    List.forall₂_same.mpr fun _ _ => rfl
  refine List.rel_filterMap ?_ numbered
  rintro ⟨line, number⟩ _ rfl
  have modes := Line.answer?_modes line
  simp only
  generalize Line.answer? .wrapping line = wrapped, Line.answer? .checked line = checked at modes ⊢
  cases modes with
  | none => exact .none
  | some agrees => exact .some ⟨rfl, agrees⟩

/-- Where checked evaluation reports no overflow, wrapping evaluation does the same. On a supported
term it gives the exact value if that of every operation is a word, and otherwise names the first
operation in post-order whose exact value is none. The outcomes of a script differ only where it
reports an overflow. -/
theorem checked_is_exact_or_overflows :
    (∀ term : Term, (∀ offset, term.value .checked ≠ .error (.overflow offset)) →
      term.value .wrapping = term.value .checked) ∧
    (∀ term : Term, term.Supported →
      ((∃ v, term.value .checked = .ok v) ↔
        ∀ token left right, Term.operation token left right ∈ term.subterms →
          -9223372036854775808 ≤ (Term.operation token left right).exact ∧
            (Term.operation token left right).exact ≤ 9223372036854775807) ∧
      (∀ v, term.value .checked = .ok v → v.toInt = term.exact) ∧
      ((¬ ∃ v, term.value .checked = .ok v) →
        ∃ node, term.postorder.find? Term.Exceeds = some node ∧
          term.value .checked = .error (.overflow node.token.offset))) ∧
    ∀ source : String,
      List.Forall₂ (fun wrapped checked => wrapped.line = checked.line ∧
          (wrapped.answer ≠ checked.answer →
            ∃ offset, checked.answer = .fault (.evaluation (.overflow offset))))
        (outcomes .wrapping source) (outcomes .checked source) := by
  refine ⟨?_, ?_, ?_⟩
  · intro term stays
    rcases term.value_modes with same | ⟨offset, overflow⟩
    · exact same.symm
    · exact absurd overflow (stays offset)
  · intro term supported
    obtain ⟨stops, gives⟩ := Term.value_checked supported
    simp only [← Decimal.fits_iff, ← Term.find?_exceeds_eq_none]
    cases found : term.postorder.find? Term.Exceeds with
    | none =>
      obtain ⟨v, result, toInt⟩ := gives found
      simp [result, toInt]
    | some node => simp [stops node found]
  · intro source
    refine (outcomes_modes source).imp ?_
    rintro wrapped checked ⟨line, agrees⟩
    exact ⟨line, agrees.resolve_left⟩

/-- A difference is refused for its first operand, a sum that is no word, although its own value is
one. -/
theorem checked_names_inner_sum :
    let sum : Term := .operation ⟨.operator, "+", 4⟩ (.literal ⟨.number, "9223372036854775807", 6⟩)
      (.literal ⟨.number, "1", 26⟩)
    let difference : Term := .operation ⟨.operator, "-", 1⟩ sum (.literal ⟨.number, "1", 29⟩)
    difference.Supported ∧ difference.exact = 9223372036854775807 ∧
      difference.value .checked = .error (.overflow 4) := by
  intro sum difference
  have supported : difference.Supported :=
    ⟨by decide, ⟨by decide, ⟨9223372036854775807, by decide +kernel⟩, ⟨1, by decide +kernel⟩⟩,
      ⟨1, by decide +kernel⟩⟩
  obtain ⟨gives, -, stops⟩ := checked_is_exact_or_overflows.2.1 difference supported
  have exceeds : ¬ ∃ v, difference.value .checked = .ok v := by
    intro success
    have range := gives.mp success ⟨.operator, "+", 4⟩ _ _ (.tail _ (.head _))
    revert range
    decide +kernel
  obtain ⟨node, found, overflow⟩ := stops exceeds
  have first : difference.postorder.find? Term.Exceeds = some sum := by decide +kernel
  rw [first, Option.some_inj] at found
  subst found
  exact ⟨supported, by decide +kernel, overflow⟩

/-- The sum overflows, although the difference would be a word again. -/
example :
    outcomes .checked "(- (+ 9223372036854775807 1) 1)" =
      [⟨1, .fault (.evaluation (.overflow 4))⟩] ∧
    outcomes .wrapping "(- (+ 9223372036854775807 1) 1)" = [⟨1, .value 9223372036854775807⟩] := by
  decide +kernel

end PrefixArith.Script
