import PrefixArith.Proofs.Formula.Batch

/-!
# Batches as concatenations

A batch is what is drawn when smaller ones are drawn one after the other, and it holds the formulas
that are drawn one by one. As a script it has one outcome for each of them, the answer to that
formula alone (`batch_is_concatenation`).
-/
namespace PrefixArith.Formula

open PrefixArith.Random

variable {settings : Settings} {patience : Nat}

/-- Where a batch is parted makes no difference to it, nor to the source that it leaves. -/
theorem drawBatch_add (settings : Settings) (patience m n : Nat) :
    drawBatch settings patience (m + n) = do
      let first ← drawBatch settings patience m
      let second ← drawBatch settings patience n
      return first ++ second := by
  induction m with
  | zero =>
    rw [Nat.zero_add, drawBatch]
    simp only [pure_bind, String.empty_append, bind_pure]
  | succ m ih =>
    rw [Nat.succ_add, drawBatch, ih, drawBatch]
    simp only [bind_assoc, pure_bind, String.append_assoc]

/-- A formula is answered however deep it nests, since it holds tokens. -/
theorem exists_answer?_of_text (mode : Overflow) (e : Expression) :
    ∃ answer, Line.answer? mode (text e) = some answer := by
  rw [Line.exists_answer?_iff, Token.scan_ne_nil_iff]
  refine ⟨'(', ?_, .inl (by decide)⟩
  rw [text, String.toList_append, String.toList_append, List.append_assoc]
  exact List.mem_append_left _ (by decide)

/-- Drawing `m + n` formulas at once gives the text of `m` formulas followed by that of the next
`n`, and leaves the source that they leave. A batch is made of the formulas that are drawn one by
one from the same source, each followed by a line feed. However they nest, it has exactly as many
outcomes, numbered from one: at each place stands the answer to the formula there. -/
theorem batch_is_concatenation (valid : settings.error? = none) (patience : Nat) :
    (∀ m n, drawBatch settings patience (m + n) = do
      let first ← drawBatch settings patience m
      let second ← drawBatch settings patience n
      return first ++ second) ∧
    (∀ count, drawBatch settings patience count = do
      let formulas ← drawList settings patience count
      return String.join (formulas.map fun formula => formula ++ "\n")) ∧
    ∀ count source batch after, (drawBatch settings patience count).run source =
      some (batch, after) →
      ∃ formulas, (drawList settings patience count).run source = some (formulas, after) ∧
        formulas.length = count ∧ ∀ mode, (Script.outcomes mode batch).length = count ∧
          ∀ k formula, formulas[k]? = some formula →
            ∃ answer, Line.answer? mode formula = some answer ∧
              (Script.outcomes mode batch)[k]? = some (Script.Outcome.mk (k + 1) answer) := by
  refine ⟨drawBatch_add settings patience, drawBatch_eq settings patience, ?_⟩
  intro count source batch after drawn
  obtain ⟨formulas, listed, rfl⟩ := drawBatch_eq_some.mp drawn
  obtain ⟨expressions, rfl, length, -⟩ := exists_texts_of_drawList valid listed
  refine ⟨_, listed, (List.length_map text).trans length, fun mode => ?_⟩
  have answered : ∀ line ∈ expressions.map text, ∃ answer, Line.answer? mode line = some answer :=
    List.forall_mem_map.mpr fun e _ => exists_answer?_of_text mode e
  rw [← sheet, Script.outcomes_eq, lines_sheet]
  constructor
  · rw [Script.length_outcomesFrom 1 answered, List.length_map, length]
  · intro k formula found
    obtain ⟨answer, own⟩ := answered formula (List.mem_of_getElem? found)
    refine ⟨answer, own, ?_⟩
    rw [Script.getElem?_outcomesFrom 1 answered found, own, Option.map_some, Nat.add_comm]

/-- Two formulas drawn at once, of which the second overflows. -/
theorem batch_is_concatenation_of_two :
    let settings : Settings :=
      { least := Int64.minValue, greatest := Int64.maxValue, nesting := .finite false 0 0 }
    let source : Source := .listed
      [0, 0, 5, 0, 7, 0x6000000000000000, 0, 0x8000000000000000, 0, 1]
    let batch := "(simplify (+ 5 7))\n(simplify (- -9223372036854775808 1))\n"
    (settings.error? = none ∧ ∃ after, (drawBatch settings 1 2).run source = some (batch, after)) ∧
      ∃ formulas after, (drawList settings 1 2).run source = some (formulas, after) ∧
        formulas.length = 2 ∧ (Script.outcomes .checked batch).length = 2 ∧
          ∀ k formula, formulas[k]? = some formula →
            ∃ answer, Line.answer? .checked formula = some answer ∧
              (Script.outcomes .checked batch)[k]? = some (Script.Outcome.mk (k + 1) answer) := by
  intro settings source batch
  have valid : settings.error? = none := by decide
  have text : ((drawBatch settings 1 2).run source).map Prod.fst = some batch := by decide +kernel
  obtain ⟨⟨_, after⟩, drawn, rfl⟩ := Option.map_eq_some_iff.mp text
  obtain ⟨formulas, listed, length, outcomes⟩ :=
    (batch_is_concatenation valid 1).2.2 2 source batch after drawn
  exact ⟨⟨valid, after, drawn⟩, formulas, after, listed, length, outcomes .checked⟩

end PrefixArith.Formula
