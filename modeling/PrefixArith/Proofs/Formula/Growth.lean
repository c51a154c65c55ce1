import PrefixArith.Proofs.Formula.Drawing
import PrefixArith.Proofs.Formula.Reading
import PrefixArith.Proofs.Term.Growth

/-!
# Formulas that cannot overflow

The settings of random formulas bound the literals and the levels, and so the values that their
formulas take on the way. Where this bound is a word, each formula has its exact value in both ways
of evaluation (`small_values_never_overflow`).
-/
namespace PrefixArith.Formula

open PrefixArith.Random

namespace Expression

theorem levels_term (e : Expression) : e.term.levels = e.levels := by
  induction e with
  | literal v => rfl
  | operation operator left right ihl ihr => rw [term, Term.levels, ihl, ihr, levels]

/-- The literals of the term are those of the expression. -/
theorem exact_of_literal_mem {e : Expression} {token : Token}
    (mem : .literal token ∈ e.term.subterms) :
    ∃ v ∈ e.literals, (Term.literal token).exact = v.toInt := by
  induction e with
  | literal v =>
    obtain ⟨rfl⟩ := List.mem_singleton.mp mem
    refine ⟨v, List.mem_singleton_self v, ?_⟩
    rw [Term.exact, Decimal.ofInt64, Decimal.intOfChars?_ofInt, Option.getD_some]
  | operation operator left right ihl ihr =>
    rcases List.mem_cons.mp mem with same | mem
    · cases same
    · rcases List.mem_append.mp mem with mem | mem
      · obtain ⟨v, inside, same⟩ := ihl mem
        exact ⟨v, List.mem_append_left _ inside, same⟩
      · obtain ⟨v, inside, same⟩ := ihr mem
        exact ⟨v, List.mem_append_right _ inside, same⟩

end Expression

/-- The greatest magnitude of a literal, but at least 2. -/
def Settings.reach (settings : Settings) : Nat :=
  max (max settings.least.toInt.natAbs settings.greatest.toInt.natAbs) 2

section Drawn
variable {settings : Settings} {levels : Nat} {e : Expression}

/-- Literals that the settings allow lie within their reach. -/
theorem Settings.Allows.natAbs_le (allowed : settings.Allows levels e) :
    ∀ v ∈ e.literals, v.toInt.natAbs ≤ settings.reach := by
  induction allowed with
  | literal low high closed =>
    rw [Expression.literals, List.forall_mem_singleton, Settings.reach]
    omega
  | operation _ _ _ first second =>
    rw [Expression.literals, List.forall_mem_append]
    exact ⟨first, second⟩

/-- Six levels of products of twos are no word any more. -/
theorem levels_lt_of_small {bound : Nat} (two : 2 ≤ bound)
    (small : bound ^ 2 ^ levels ≤ 9223372036854775807) : levels < 6 := by
  by_contra many
  have beyond : 2 ^ 2 ^ 6 ≤ bound ^ 2 ^ levels :=
    calc 2 ^ 2 ^ 6
        ≤ bound ^ 2 ^ 6 := Nat.pow_le_pow_left two _
      _ ≤ bound ^ 2 ^ levels := Term.pow_two_pow_le two (Nat.le_of_not_lt many)
  have least : 9223372036854775807 < 2 ^ 2 ^ 6 := by decide
  omega

/-- A formula of small enough literals has its exact value in both ways of evaluation. -/
theorem answer?_text_of_small {bound : Nat} (two : 2 ≤ bound)
    (within : ∀ v ∈ e.literals, v.toInt.natAbs ≤ bound) (few : e.levels ≤ levels)
    (small : bound ^ 2 ^ levels ≤ 9223372036854775807) :
    ∃ v, v.toInt = (term e).exact ∧ ∀ mode, Line.answer? mode (text e) = some (.value v) := by
  have room : e.levels + 1 ≤ Term.nestingLimit := by
    have levels := levels_lt_of_small two small
    rw [Term.nestingLimit]
    omega
  have literals : (term e).LiteralsWithin bound := by
    intro token mem
    rcases List.mem_cons.mp mem with same | mem
    · cases same
    · obtain ⟨v, inside, same⟩ := Expression.exact_of_literal_mem mem
      rw [same]
      exact within v inside
  have few : (term e).levels ≤ levels := by rwa [term, Term.levels, e.levels_term]
  obtain ⟨v, exact, checked, wrapped⟩ :=
    Term.value_of_small (supported_term e) two literals few small
  have same := (term e).printedAt_eqUpToOffsets 0
  refine ⟨v, exact, fun mode => ?_⟩
  rw [Line.answer?_of_read (ofTokens_scan_formula room _)]
  cases mode with
  | wrapping => rw [same.value_eq_ok wrapped, Line.Answer.ofValue]
  | checked => rw [same.value_eq_ok checked, Line.Answer.ofValue]

end Drawn

/-- A term whose literals are numerals of words of magnitude at most `bound`, whose keywords are all
`simplify` and whose operators are known stands for an integer of magnitude at most
`bound ^ 2 ^ levels`, if no more than `levels` of its operations stand around one another. If this
is a word, the integer is its value, whether overflows are checked or not. So with settings of small
literals and few levels every formula that is drawn has a value in both ways of evaluation. -/
theorem small_values_never_overflow :
    (∀ (term : Term) (bound levels : Nat), 2 ≤ bound →
      (∀ token, .literal token ∈ term.subterms → ∃ z, Decimal.Numeral z token.text ∧
        -9223372036854775808 ≤ z ∧ z ≤ 9223372036854775807 ∧ z.natAbs ≤ bound) →
      (∀ token operand, .keyword token operand ∈ term.subterms → token.text = "simplify") →
      (∀ token left right, .operation token left right ∈ term.subterms →
        token.text ∈ ["+", "-", "*"]) →
      term.levels ≤ levels →
      ∃ z, term.Denotes z ∧ (∀ other, term.Denotes other → other = z) ∧
        z.natAbs ≤ bound ^ 2 ^ levels ∧
        (bound ^ 2 ^ levels ≤ 9223372036854775807 →
          ∃ v, v.toInt = z ∧ term.value .checked = .ok v ∧ term.value .wrapping = .ok v)) ∧
    ∀ settings : Settings, settings.error? = none →
      (max (max settings.least.toInt.natAbs settings.greatest.toInt.natAbs) 2) ^ 2 ^ max
        1 settings.levels ≤
        9223372036854775807 →
      ∀ patience source formula after, (draw settings patience).run source = some (formula, after) →
        ∃ e v, formula = text e ∧ (term e).Denotes v.toInt ∧
          ∀ mode, Line.answer? mode formula = some (.value v) := by
  constructor
  · intro term bound levels two literals keywords operations few
    have known : ∀ node ∈ term.subterms, node.Known := by
      refine Term.forall_known_iff.mpr ⟨fun token mem => ?_, keywords, operations⟩
      obtain ⟨z, numeral, low, high, -⟩ := literals token mem
      exact ⟨z, numeral, Decimal.fits_iff.mpr ⟨low, high⟩⟩
    have supported := Term.supported_iff.mpr known
    have within : term.LiteralsWithin bound := by
      intro token mem
      obtain ⟨z, numeral, -, -, le⟩ := literals token mem
      rwa [Term.exact, Decimal.intOfChars?_eq_some_iff.mpr numeral, Option.getD_some]
    exact ⟨term.exact, Term.denotes_exact supported, fun other denotes => denotes.exact_eq.symm,
      Term.natAbs_exact_le two within few, Term.value_of_small supported two within few⟩
  · intro settings valid small patience source formula after drawn
    obtain ⟨operator, left, right, rfl, first, second⟩ := draw_eq_some valid drawn
    have few : (Expression.operation operator left right).levels ≤ max 1 settings.levels :=
      (first.levels_operation_le second operator).trans (by omega)
    have within : ∀ v ∈ (Expression.operation operator left right).literals,
        v.toInt.natAbs ≤ settings.reach := by
      rw [Expression.literals, List.forall_mem_append]
      exact ⟨first.natAbs_le, second.natAbs_le⟩
    obtain ⟨v, exact, answers⟩ := answer?_text_of_small (Nat.le_max_right _ 2) within few small
    refine ⟨_, v, rfl, ?_, answers⟩
    rw [exact]
    exact Term.denotes_exact (supported_term _)

/-- A product of four literals of magnitude 55108, the greatest one for which the bound of two
levels is a word, and a product of eight literals that is drawn from settings that do not go beyond
234. -/
theorem small_values_never_overflow_of_powers :
    let square : Term := .operation ⟨.operator, "*", 4⟩ (.literal ⟨.number, "55108", 6⟩)
      (.literal ⟨.number, "-055108", 12⟩)
    let fourth : Term :=
      .operation ⟨.operator, "*", 1⟩ square (.keyword ⟨.keyword, "simplify", 22⟩ square)
    let settings : Settings :=
      { least := -234, greatest := 9, nesting := .finite false 1 0, levels := 3 }
    let times : UInt64 := 0xC000000000000000
    let source : Source :=
      .listed [times, times, times, 0, 0, times, 0, 0, times, times, 0, 0, times, 0, 0]
    let formula :=
      "(simplify (* (* (* -234 -234) (* -234 -234)) (* (* -234 -234) (* -234 -234))))"
    (fourth.levels = 2 ∧ 55108 ^ 2 ^ 2 ≤ 9223372036854775807 ∧
      ¬ 55109 ^ 2 ^ 2 ≤ 9223372036854775807 ∧
      ∃ z, fourth.Denotes z ∧ z.natAbs ≤ 55108 ^ 2 ^ 2 ∧
        ∃ v, v.toInt = z ∧ fourth.value .checked = .ok v ∧ fourth.value .wrapping = .ok v) ∧
    settings.error? = none ∧ 234 ^ 2 ^ 3 ≤ 9223372036854775807 ∧
    ∃ after, (draw settings 1).run source = some (formula, after) ∧
      ∃ v, ∀ mode, Line.answer? mode formula = some (.value v) := by
  intro square fourth settings times source formula
  constructor
  · have literals : ∀ token, .literal token ∈ fourth.subterms → ∃ z, Decimal.Numeral z token.text ∧
        -9223372036854775808 ≤ z ∧ z ≤ 9223372036854775807 ∧ z.natAbs ≤ 55108 := by
      intro token mem
      have text : token.text = "55108" ∨ token.text = "-055108" := by
        simp only [fourth, square, Term.subterms, List.mem_cons, List.mem_append,
          Term.literal.injEq, List.not_mem_nil, reduceCtorEq, or_false, false_or] at mem
        rcases mem with (rfl | rfl) | rfl | rfl <;> simp
      rcases text with text | text
      · exact ⟨55108, Decimal.intOfChars?_eq_some_iff.mp (by rw [text]; decide +kernel), by decide⟩
      · exact ⟨-55108, Decimal.intOfChars?_eq_some_iff.mp (by rw [text]; decide +kernel), by decide⟩
    have keywords :
      ∀ token operand, .keyword token operand ∈ fourth.subterms → token.text = "simplify" := by
      simp +contextual [fourth, square, Term.subterms]
    have operations : ∀ token left right, .operation token left right ∈ fourth.subterms →
        token.text ∈ ["+", "-", "*"] := by
      simp +contextual [fourth, square, Term.subterms, or_imp]
    obtain ⟨z, denotes, -, le, gives⟩ :=
      small_values_never_overflow.1 fourth 55108 2 (by decide) literals
      keywords operations (Nat.le_refl 2)
    exact ⟨rfl, by decide, by decide, z, denotes, le, gives (by decide)⟩
  · have valid : settings.error? = none := by decide
    have drawn : ((draw settings 1).run source).map Prod.fst = some formula := by decide +kernel
    obtain ⟨⟨_, after⟩, drawn, rfl⟩ := Option.map_eq_some_iff.mp drawn
    obtain ⟨e, v, -, -, answers⟩ :=
      small_values_never_overflow.2 settings valid (by decide) 1 source _ after drawn
    exact ⟨valid, by decide, after, drawn, v, answers⟩

end PrefixArith.Formula
