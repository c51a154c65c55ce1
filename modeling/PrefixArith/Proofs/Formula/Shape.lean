import Mathlib.Algebra.Order.Ring.Nat
import PrefixArith.Proofs.Formula.Language
import PrefixArith.Proofs.Random.Words
import PrefixArith.Proofs.Term.Paths

/-!
# The shape of random formulas

The levels of the settings bound the depth and the size of a formula. Where nesting is sure, both
bounds are reached and all literals stand equally deep; where it is impossible, a formula is an
operation on two literals. So in either case the term that is read has the same shape for all words
(`levels_shape_formula`).
-/
namespace PrefixArith.Formula

open PrefixArith.Random

namespace Expression
variable {levels : Nat} {e : Expression}

/-- With each level the number of operations doubles at most, but for one. -/
theorem operations_succ_le (e : Expression) : e.operations + 1 ≤ 2 ^ e.levels := by
  induction e with
  | literal v => exact Nat.le_refl 1
  | operation operator left right ihl ihr =>
    have first : 2 ^ left.levels ≤ 2 ^ max left.levels right.levels :=
      Nat.pow_le_pow_right (by decide) (Nat.le_max_left _ _)
    have second : 2 ^ right.levels ≤ 2 ^ max left.levels right.levels :=
      Nat.pow_le_pow_right (by decide) (Nat.le_max_right _ _)
    rw [operations, Expression.levels, Nat.pow_succ]
    omega

/-! ## Expressions whose levels are all used -/

namespace Full

theorem levels_eq (full : e.Full levels) : e.levels = levels := by
  induction levels generalizing e with
  | zero =>
    obtain ⟨v, rfl⟩ := full_zero.mp full
    rfl
  | succ levels ih =>
    obtain ⟨operator, left, right, rfl, first, second⟩ := full_succ.mp full
    rw [Expression.levels, ih first, ih second, Nat.max_self]

theorem operations_eq (full : e.Full levels) : e.operations + 1 = 2 ^ levels := by
  induction levels generalizing e with
  | zero =>
    obtain ⟨v, rfl⟩ := full_zero.mp full
    rfl
  | succ levels ih =>
    obtain ⟨operator, left, right, rfl, first, second⟩ := full_succ.mp full
    have operationsLeft := ih first
    have operationsRight := ih second
    rw [operations, Nat.pow_succ]
    omega

theorem literalsAt_term (full : e.Full levels) : e.term.LiteralsAt levels := by
  induction levels generalizing e with
  | zero =>
    obtain ⟨v, rfl⟩ := full_zero.mp full
    exact .literal _
  | succ levels ih =>
    obtain ⟨operator, left, right, rfl, first, second⟩ := full_succ.mp full
    exact (ih first).operation (ih second) _

end Full

end Expression

/-! ## The terms that are read -/

/-- Within the limit a formula is read as a term whose measures are known from its expression. -/
theorem exists_ofTokens_text {e : Expression} (within : e.levels + 1 ≤ Term.nestingLimit) :
    ∃ read, Term.ofTokens (Token.scan (text e)) (text e).utf8ByteSize = .ok read ∧
      read.depth = e.levels + 2 ∧ read.size = 2 * (e.operations + 1) ∧
      ∀ {length}, e.term.LiteralsAt length → read.LiteralsAt (length + 1) := by
  have same := (term e).printedAt_eqUpToOffsets 0
  refine ⟨_, ofTokens_scan_formula within _, ?_, ?_, ?_⟩
  · rw [Term.depth_eq_nesting, same.nesting_eq, nesting_term]
  · rw [same.size_eq, size_term, Nat.mul_succ]
  · intro length literals
    exact (literals.keyword _).of_eqUpToOffsets same

section Drawn
variable {settings : Settings} {levels : Nat} {e : Expression}

/-- Where nesting is impossible only literals are allowed as operands. -/
theorem Settings.Allows.literal_of_impossible (allowed : settings.Allows levels e)
    (impossible : settings.nesting.scaled = 0) : ∃ v, e = .literal v := by
  have unsure : settings.nesting.isOne = false := isOne_of_scaled_lt (by rw [impossible]; decide)
  cases allowed with
  | literal low high closed => exact ⟨_, rfl⟩
  | operation possible first second => simp [impossible, unsure] at possible

end Drawn

/-- Whatever the words of the source, a formula that is drawn keeps to the levels of the settings,
of which the outermost operation needs none. With at most 999 of them and sure nesting it is read as
a perfect tree: of the greatest depth and size that its levels allow, with all literals equally
deep. With a probability that is zero, or less than any word can tell from zero, it is read as one
operation on two literals for any number of levels. Without a level it is drawn as with one. -/
theorem levels_shape_formula {settings : Settings} (valid : settings.error? = none) {patience : Nat}
    {source after : Source} {formula : String}
    (drawn : (draw settings patience).run source = some (formula, after)) :
    (settings.nesting.isOne = true → settings.levels ≤ 999 → ∃ read,
      Term.ofTokens (Token.scan formula) formula.utf8ByteSize = .ok read ∧
      read.depth = max 1 settings.levels + 2 ∧ read.size = 2 ^ (max 1 settings.levels + 1) ∧
      ∀ path token, read.at? path = some (.literal token) →
        path.length = max 1 settings.levels + 1) ∧
    (settings.nesting.scaled = 0 → ∃ read,
      Term.ofTokens (Token.scan formula) formula.utf8ByteSize = .ok read ∧
      read.depth = 3 ∧ read.size = 4) ∧
    (settings.levels ≤ 999 → ∃ read,
      Term.ofTokens (Token.scan formula) formula.utf8ByteSize = .ok read ∧
      read.depth ≤ max 1 settings.levels + 2 ∧ read.size ≤ 2 ^ (max 1 settings.levels + 1)) ∧
    draw { settings with levels := 0 } patience = draw { settings with levels := 1 } patience := by
  obtain ⟨operator, left, right, rfl, first, second⟩ := draw_eq_some valid drawn
  have levels : settings.levels - 1 + 1 = max 1 settings.levels := by omega
  have below : (Expression.operation operator left right).levels ≤ max 1 settings.levels := by
    rw [← levels]
    exact first.levels_operation_le second operator
  have within (few : settings.levels ≤ 999) :
      (Expression.operation operator left right).levels + 1 ≤ Term.nestingLimit := by
    rw [Term.nestingLimit]
    omega
  refine ⟨fun sure few => ?_, fun impossible => ?_, fun few => ?_, rfl⟩
  · have full : (Expression.operation operator left right).Full (max 1 settings.levels) := by
      rw [← levels]
      exact ⟨first.full sure, second.full sure⟩
    obtain ⟨read, success, depth, size, literals⟩ := exists_ofTokens_text (within few)
    refine ⟨read, success, ?_, ?_, literals full.literalsAt_term⟩
    · rw [depth, full.levels_eq]
    · rw [size, full.operations_eq, Nat.pow_succ, Nat.mul_comm]
  · obtain ⟨v, rfl⟩ := first.literal_of_impossible impossible
    obtain ⟨w, rfl⟩ := second.literal_of_impossible impossible
    have within : (Expression.operation operator (.literal v) (.literal w)).levels + 1 ≤
        Term.nestingLimit := by
      simp [Expression.levels, Term.nestingLimit]
    obtain ⟨read, success, depth, size, -⟩ := exists_ofTokens_text within
    exact ⟨read, success, depth, size⟩
  · obtain ⟨read, success, depth, size, -⟩ := exists_ofTokens_text (within few)
    refine ⟨read, success, ?_, ?_⟩
    · rw [depth]
      exact Nat.add_le_add_right below 2
    · rw [size, Nat.pow_succ, Nat.mul_comm]
      exact Nat.mul_le_mul_right 2 ((Expression.operations_succ_le _).trans
        (Nat.pow_le_pow_right (by decide) below))

/-- Sure nesting uses both of two levels. Nesting with the probability zero, here a negative one,
leaves a thousand levels unused. -/
theorem levels_shape_formula_of_extremes :
    let sure : Settings := { nesting := .finite false 1 0, levels := 2 }
    let never : Settings := { nesting := .finite true 0 (-1074), levels := 1000 }
    let source : Source := .listed [0, 0, 0x8000000000000000, 0, 0x6000000000000000, 0, 0]
    let perfect := "(simplify (+ (+ 0 -10) (- -10 -10)))"
    let flat := "(simplify (+ 0 -3))"
    (sure.error? = none ∧ (∃ after, (draw sure 1).run source = some (perfect, after)) ∧
      ∃ read, Term.ofTokens (Token.scan perfect) perfect.utf8ByteSize = .ok read ∧
        read.depth = 4 ∧ read.size = 8 ∧
        ∀ path token, read.at? path = some (.literal token) → path.length = 3) ∧
    never.error? = none ∧ (∃ after, (draw never 1).run source = some (flat, after)) ∧
      ∃ read, Term.ofTokens (Token.scan flat) flat.utf8ByteSize = .ok read ∧
        read.depth = 3 ∧ read.size = 4 := by
  intro sure never source perfect flat
  constructor
  · have valid : sure.error? = none := by decide
    have text : ((draw sure 1).run source).map Prod.fst = some perfect := by decide +kernel
    obtain ⟨⟨_, after⟩, drawn, rfl⟩ := Option.map_eq_some_iff.mp text
    exact ⟨valid, ⟨after, drawn⟩, (levels_shape_formula valid drawn).1 (by decide) (by decide)⟩
  · have valid : never.error? = none := by decide
    have text : ((draw never 1).run source).map Prod.fst = some flat := by decide +kernel
    obtain ⟨⟨_, after⟩, drawn, rfl⟩ := Option.map_eq_some_iff.mp text
    exact ⟨valid, ⟨after, drawn⟩, (levels_shape_formula valid drawn).2.1 (by decide)⟩

end PrefixArith.Formula
