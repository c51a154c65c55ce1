import PrefixArith.Proofs.Formula.Drawing
import PrefixArith.Proofs.Formula.Reading
import PrefixArith.Proofs.Script.Lines
import PrefixArith.Proofs.Text.Unbroken

/-!
# Batches of random formulas

A batch has one line for each of its formulas, since none of them can be broken. As a script it has
an outcome for each of its lines, and only an overflow keeps one from being a value.
-/
namespace PrefixArith.Formula

open PrefixArith.Random
open Text (Unbroken)

/-! ## Formulas on one line -/

theorem Expression.unbroken_text (e : Expression) : Unbroken e.text := by
  induction e with
  | literal v => exact Text.unbroken_ofInt v.toInt
  | operation operator left right ihl ihr =>
    have symbol : Unbroken operator.text := by cases operator <;> decide
    rw [Expression.text]
    simp only [Text.unbroken_append]
    exact ⟨⟨⟨⟨⟨⟨by decide, symbol⟩, by decide⟩, ihl⟩, by decide⟩, ihr⟩, by decide⟩

theorem unbroken_text (e : Expression) : Unbroken (text e) := by
  rw [text, Text.unbroken_append, Text.unbroken_append]
  exact ⟨⟨by decide, e.unbroken_text⟩, by decide⟩

/-- Formulas one below the other. -/
def sheet (expressions : List Expression) : String :=
  String.join ((expressions.map text).map fun line => line ++ "\n")

theorem lines_sheet (expressions : List Expression) :
    Text.lines (sheet expressions) = expressions.map text :=
  Text.lines_join_feed (List.forall_mem_map.mpr fun e _ => unbroken_text e)

/-! ## What is drawn -/

section Drawn
variable {settings : Settings} {patience count : Nat} {source after : Source}

/-- A formula that is drawn keeps within the levels of the settings. The outermost operation is
drawn even without a level. -/
theorem exists_text_of_draw (valid : settings.error? = none) {formula : String}
    (drawn : (draw settings patience).run source = some (formula, after)) :
    ∃ e : Expression, formula = text e ∧ e.levels ≤ settings.levels - 1 + 1 := by
  obtain ⟨operator, left, right, rfl, first, second⟩ := draw_eq_some valid drawn
  exact ⟨_, rfl, first.levels_operation_le second operator⟩

/-- The formulas of a list are drawn one after the other. -/
theorem exists_texts_of_drawList (valid : settings.error? = none) {formulas : List String}
    (drawn : (drawList settings patience count).run source = some (formulas, after)) :
    ∃ expressions : List Expression, formulas = expressions.map text ∧ expressions.length = count ∧
      ∀ e ∈ expressions, e.levels ≤ settings.levels - 1 + 1 := by
  induction count generalizing source formulas with
  | zero =>
    obtain ⟨rfl, -⟩ := run_pure_eq_some.mp drawn
    exact ⟨[], rfl, rfl, by simp⟩
  | succ count ih =>
    obtain ⟨formula, middle, first, drawn⟩ := run_bind_eq_some.mp drawn
    obtain ⟨others, rest, later, drawn⟩ := run_bind_eq_some.mp drawn
    obtain ⟨rfl, rfl⟩ := run_pure_eq_some.mp drawn
    obtain ⟨e, rfl, within⟩ := exists_text_of_draw valid first
    obtain ⟨expressions, rfl, length, bounded⟩ := ih later
    exact ⟨e :: expressions, rfl, congrArg (· + 1) length,
      List.forall_mem_cons.mpr ⟨within, bounded⟩⟩

/-- A batch is drawn like a list of formulas, which are then written one below the other. -/
theorem drawBatch_eq (settings : Settings) (patience count : Nat) :
    drawBatch settings patience count = do
      let formulas ← drawList settings patience count
      return String.join (formulas.map fun formula => formula ++ "\n") := by
  induction count with
  | zero => rfl
  | succ count ih =>
    rw [drawBatch, drawList, ih]
    simp only [bind_assoc, pure_bind, List.map_cons, String.join_cons]

theorem drawBatch_eq_some {batch : String} :
    (drawBatch settings patience count).run source = some (batch, after) ↔
      ∃ formulas, (drawList settings patience count).run source = some (formulas, after) ∧
        batch = String.join (formulas.map fun formula => formula ++ "\n") := by
  rw [drawBatch_eq, run_bind_eq_some]
  simp only [run_pure_eq_some]
  constructor
  · rintro ⟨formulas, _, drawn, rfl, rfl⟩
    exact ⟨formulas, drawn, rfl⟩
  · rintro ⟨formulas, drawn, rfl⟩
    exact ⟨formulas, after, drawn, rfl, rfl⟩

/-- A batch is drawn as that many formulas one below the other. -/
theorem exists_sheet_of_drawBatch (valid : settings.error? = none) {batch : String}
    (drawn : (drawBatch settings patience count).run source = some (batch, after)) :
    ∃ expressions, batch = sheet expressions ∧ expressions.length = count ∧
      ∀ e ∈ expressions, e.levels ≤ settings.levels - 1 + 1 := by
  obtain ⟨formulas, listed, rfl⟩ := drawBatch_eq_some.mp drawn
  obtain ⟨expressions, rfl, bounded⟩ := exists_texts_of_drawList valid listed
  exact ⟨expressions, rfl, bounded⟩

/-- By default formulas have few enough levels to be read. -/
theorem exists_sheet_of_default {batch : String}
    (drawn : (drawBatch {} patience count).run source = some (batch, after)) :
    ∃ expressions, batch = sheet expressions ∧ expressions.length = count ∧
      ∀ e ∈ expressions, e.levels + 1 ≤ Term.nestingLimit := by
  have valid : Settings.error? {} = none := by decide
  obtain ⟨expressions, rfl, length, bounded⟩ := exists_sheet_of_drawBatch valid drawn
  refine ⟨expressions, rfl, length, fun e mem => ?_⟩
  have few : e.levels ≤ 8 := bounded e mem
  exact Nat.le_trans (Nat.succ_le_succ few) (by decide)

end Drawn

/-! ## What is answered -/

/-- A value, or where that is checked an overflow. -/
def ValueOrOverflow (mode : Overflow) (answer : Line.Answer) : Prop :=
  (∃ v, answer = .value v) ∨
    mode = .checked ∧ ∃ offset, answer = .fault (.evaluation (.overflow offset))

theorem exists_answer?_text {e : Expression} (within : e.levels + 1 ≤ Term.nestingLimit)
    (mode : Overflow) :
    ∃ answer, Line.answer? mode (text e) = some answer ∧ ValueOrOverflow mode answer := by
  obtain ⟨v, wrapped, checked⟩ := answer?_text within
  cases mode with
  | wrapping => exact ⟨_, wrapped, .inl ⟨v, rfl⟩⟩
  | checked =>
    rcases checked with same | ⟨offset, overflow⟩
    · exact ⟨_, same, .inl ⟨v, rfl⟩⟩
    · exact ⟨_, overflow, .inr ⟨rfl, offset, rfl⟩⟩

/-- Every formula of a sheet has an outcome, which is a value or an overflow. -/
theorem outcomes_sheet {expressions : List Expression}
    (within : ∀ e ∈ expressions, e.levels + 1 ≤ Term.nestingLimit) (mode : Overflow) :
    (Script.outcomes mode (sheet expressions)).length = expressions.length ∧
      ∀ outcome ∈ Script.outcomes mode (sheet expressions),
        ValueOrOverflow mode outcome.answer := by
  rw [Script.outcomes_eq, lines_sheet]
  have answered : ∀ line ∈ expressions.map text, ∃ answer, Line.answer? mode line = some answer ∧
      ValueOrOverflow mode answer :=
    List.forall_mem_map.mpr fun e mem => exists_answer?_text (within e mem) mode
  constructor
  · rw [Script.length_outcomesFrom 1 fun line mem => (answered line mem).imp fun _ => And.left,
      List.length_map]
  · intro outcome mem
    obtain ⟨n, line, found, -, own⟩ := Script.mem_outcomesFrom.mp mem
    obtain ⟨answer, own', expected⟩ := answered line (List.mem_of_getElem? found)
    obtain rfl : outcome.answer = answer := Option.some_inj.mp (own.symm.trans own')
    exact expected

end PrefixArith.Formula
