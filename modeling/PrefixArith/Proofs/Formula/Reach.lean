import PrefixArith.Proofs.Formula.Language
import PrefixArith.Proofs.Random.Words

/-!
# Every formula is drawn

The language of the settings holds no text that is never drawn. A text of it is the text of an
expression that the settings allow, since literals have one canonical text
(`Settings.Writes.exists_allows`). Words for an expression are put together in the order in which it
is drawn: one for each operator, each literal, and each operand where a level is left
(`exists_operand_yields`).
-/
namespace PrefixArith.Formula

open PrefixArith.Random

/-! ## From texts to expressions -/

theorem exists_operator {text : String} (known : text ∈ ["+", "-", "*"]) :
    ∃ operator : Operator, text = operator.text := by
  simp only [List.mem_cons, List.not_mem_nil, or_false] at known
  rcases known with rfl | rfl | rfl
  · exact ⟨.add, rfl⟩
  · exact ⟨.subtract, rfl⟩
  · exact ⟨.multiply, rfl⟩

/-- The text of an operation on operands that the settings allow below it. -/
def Settings.WritesOperation (settings : Settings) (levels : Nat) (text : String) : Prop :=
  ∃ below operator left right, levels = below + 1 ∧
    text = (Expression.operation operator left right).text ∧
    settings.Allows below left ∧ settings.Allows below right

/-- Where nesting is possible but not sure, the texts of the language are those of expressions that
the settings allow. -/
theorem Settings.Writes.exists_allows {settings : Settings} (possible : 1 ≤ settings.nesting.scaled)
    (unsure : settings.nesting.scaled < UInt64.size) {part : Part} {levels operators : Nat}
    {text : String} (written : settings.Writes part levels operators text) :
    match part with
    | .formula => ∃ inside, text = "(simplify " ++ inside ++ ")" ∧
      settings.WritesOperation levels inside
    | .operation => settings.WritesOperation levels text
    | .operand => ∃ e, text = e.text ∧ settings.Allows levels e := by
  induction written with
  | formula only ih => exact ⟨_, rfl, ih⟩
  | operation known one other ih ih' =>
    obtain ⟨operator, rfl⟩ := exists_operator known
    obtain ⟨left, rfl, allowed⟩ := ih
    obtain ⟨right, rfl, allowed'⟩ := ih'
    exact ⟨_, operator, left, right, rfl, rfl, allowed, allowed'⟩
  | @literal levels z text low high canonical =>
    have fits : Decimal.Fits z :=
      ⟨(Decimal.fits_toInt settings.least).1.trans low,
        high.trans (Decimal.fits_toInt settings.greatest).2⟩
    have same := Decimal.toInt_ofInt fits
    refine ⟨.literal (Int64.ofInt z), ?_, .literal ?_ ?_ (.inr (isOne_of_scaled_lt unsure))⟩
    · rw [Expression.text, Decimal.ofInt64, same]
      exact canonical.eq_ofInt
    · rwa [same]
    · rwa [same]
  | nested inside ih =>
    obtain ⟨below, operator, left, right, rfl, rfl, first, second⟩ := ih
    exact ⟨_, rfl, .operation (.inr possible) first second⟩

/-! ## Words for an expression -/

section Words
variable {settings : Settings}

/-- The operand of an operation below which `levels` more may stand inside one another. -/
def drawOperand (settings : Settings) (patience : Nat) : (levels : Nat) → Draw Expression
  | 0 => drawLiteral settings patience
  | levels + 1 => do
    if ← chance settings.nesting then drawOperation settings patience levels
    else drawLiteral settings patience

theorem drawOperation_eq (settings : Settings) (patience levels : Nat) :
    drawOperation settings patience levels =
      drawWith patience (drawOperand settings patience levels) := by
  cases levels <;> rfl

/-- The three numbers that are drawn for an operator stand for different ones. -/
theorem exists_number (operator : Operator) :
    ∃ number, number < 3 ∧ ∀ n < 3, operatorAt n = operator ↔ n = number := by
  cases operator with
  | add => exact ⟨0, by decide, by decide⟩
  | subtract => exact ⟨1, by decide, by decide⟩
  | multiply => exact ⟨2, by decide, by decide⟩

theorem exists_operator_yields (operator : Operator) :
    ∃ word, ∀ patience, Yields (drawOperator (patience + 1)) [word] operator := by
  obtain ⟨n, inside, only⟩ := exists_number operator
  obtain ⟨word, selects⟩ := exists_selected? inside (by decide)
  refine ⟨word, fun patience => ?_⟩
  rw [← (only n inside).mpr rfl]
  exact (below_yields selects patience).map operatorAt

theorem exists_literal_yields {v : Int64} (low : settings.least.toInt ≤ v.toInt)
    (high : v.toInt ≤ settings.greatest.toInt) :
    ∃ word, ∀ patience, Yields (drawLiteral settings (patience + 1)) [word] (.literal v) := by
  obtain ⟨word, chosen⟩ := exists_between_yields low high
  exact ⟨word, fun patience => (chosen patience).map Expression.literal⟩

theorem drawWith_yields {patience : Nat} {draw : Draw Expression} {operator : Operator}
    {left right : Expression} {word : UInt64} {words more : List UInt64}
    (chosen : Yields (drawOperator patience) [word] operator) (first : Yields draw words left)
    (second : Yields draw more right) :
    Yields (drawWith patience draw) (word :: (words ++ more)) (.operation operator left right) :=
  chosen.bind (first.bind (second.map (Expression.operation operator left)))

/-- Words for the operands of an operation make words for it. -/
theorem exists_operation_yields {levels : Nat} (operator : Operator) {left right : Expression}
    {words more : List UInt64}
    (first : ∀ patience, Yields (drawOperand settings (patience + 1) levels) words left)
    (second : ∀ patience, Yields (drawOperand settings (patience + 1) levels) more right) :
    ∃ all, ∀ patience, Yields (drawOperation settings (patience + 1) levels) all
      (.operation operator left right) := by
  obtain ⟨word, chosen⟩ := exists_operator_yields operator
  refine ⟨word :: (words ++ more), fun patience => ?_⟩
  rw [drawOperation_eq]
  exact drawWith_yields (chosen patience) (first patience) (second patience)

/-- Where nesting is possible but not sure, every operand that the settings allow is drawn. -/
theorem exists_operand_yields (possible : 1 ≤ settings.nesting.scaled)
    (unsure : settings.nesting.scaled < UInt64.size) {levels : Nat} {e : Expression}
    (allowed : settings.Allows levels e) :
    ∃ words, ∀ patience, Yields (drawOperand settings (patience + 1) levels) words e := by
  induction allowed with
  | @literal levels v low high closed =>
    obtain ⟨word, chosen⟩ := exists_literal_yields low high
    cases levels with
    | zero => exact ⟨[word], chosen⟩
    | succ levels =>
      obtain ⟨no, stays⟩ := exists_chance_yields possible unsure false
      exact ⟨[no] ++ [word], fun patience => stays.bind (chosen patience)⟩
  | operation _ _ _ ihl ihr =>
    obtain ⟨words, first⟩ := ihl
    obtain ⟨more, second⟩ := ihr
    obtain ⟨all, drawn⟩ := exists_operation_yields _ first second
    obtain ⟨yes, nests⟩ := exists_chance_yields possible unsure true
    exact ⟨[yes] ++ all, fun patience => nests.bind (drawn patience)⟩

end Words

/-- Where nesting is possible but not sure, every text in the language of the settings is drawn: on
each source that begins with certain words the draw yields it, takes exactly these words, and
rejects none of them. -/
theorem every_formula_is_drawn {settings : Settings} (possible : 1 ≤ settings.nesting.scaled)
    (unsure : settings.nesting.scaled < 18446744073709551616) {operators : Nat} {formula : String}
    (written : settings.Writes .formula (max 1 settings.levels) operators formula) :
    ∃ words : List UInt64, ∀ source : Source,
      (∀ n word, words[n]? = some word → source.word (source.taken + n) = word) →
      ∀ patience, 1 ≤ patience → (draw settings patience).run source =
        some (formula, ⟨source.word, source.taken + words.length⟩) := by
  obtain ⟨_, rfl, below, operator, left, right, levels, rfl, first, second⟩ :=
    written.exists_allows possible unsure
  obtain rfl : settings.levels - 1 = below := by omega
  obtain ⟨words, first⟩ := exists_operand_yields possible unsure first
  obtain ⟨more, second⟩ := exists_operand_yields possible unsure second
  obtain ⟨all, drawn⟩ := exists_operation_yields operator first second
  refine ⟨all, fun source begins patience some => ?_⟩
  obtain ⟨patience, rfl⟩ : ∃ n, patience = n + 1 := ⟨patience - 1, by omega⟩
  exact (drawn patience).map text source begins

/-- From the whole range of literals the least word is drawn in front of an operation, and the
greatest one inside it. -/
theorem every_formula_is_drawn_of_product :
    let settings : Settings := { least := Int64.minValue, greatest := Int64.maxValue, levels := 2 }
    let formula := "(simplify (* -9223372036854775808 (- 7 9223372036854775807)))"
    1 ≤ settings.nesting.scaled ∧ settings.nesting.scaled < 18446744073709551616 ∧
      settings.Writes .formula (max 1 settings.levels) 2 formula ∧
      ∃ words : List UInt64, ∀ source : Source,
        (∀ n word, words[n]? = some word → source.word (source.taken + n) = word) →
        (draw settings 1).run source =
          some (formula, ⟨source.word, source.taken + words.length⟩) := by
  intro settings formula
  have possible : 1 ≤ settings.nesting.scaled := by decide
  have unsure : settings.nesting.scaled < 18446744073709551616 := by decide
  have word (levels : Nat) (v : Int64) :
      settings.Writes .operand levels 0 (Decimal.ofInt64 v) :=
    .literal (Decimal.fits_toInt v).1 (Decimal.fits_toInt v).2 (Decimal.canonical_ofInt v.toInt)
  let product : Expression := .operation .multiply (.literal (-9223372036854775808))
    (.operation .subtract (.literal 7) (.literal 9223372036854775807))
  have formed : settings.Writes .formula (max 1 settings.levels) 2 (text product) :=
    .formula (.operation (mem_operators _) (word 1 _)
      (.nested (.operation (mem_operators _) (word 0 _) (word 0 _))))
  have same : text product = formula := by decide +kernel
  have written :
    settings.Writes .formula (max 1 settings.levels) 2 formula := by rwa [same] at formed
  obtain ⟨words, drawn⟩ := every_formula_is_drawn possible unsure written
  exact ⟨possible, unsure, written, words, fun source begins =>
    drawn source begins 1 (Nat.le_refl 1)⟩

end PrefixArith.Formula
