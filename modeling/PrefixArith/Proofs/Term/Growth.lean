import Mathlib.Algebra.Order.Ring.Nat
import PrefixArith.Proofs.Term.Wrapping

/-!
# How large values grow

With each level of operations a value at most squares: a product does, and sums and differences stay
below the product as soon as the operands may reach 2. So the literals and the levels of a term
bound the value of each of its parts (`natAbs_exact_le`), and where the bound is a word, checked
evaluation has no overflow to report.
-/
namespace PrefixArith

/-- An operator squares the magnitude of its operands at most. -/
theorem Operator.natAbs_onInts_le (operator : Operator) {a b : Int} {bound : Nat} (two : 2 ≤ bound)
    (first : a.natAbs ≤ bound) (second : b.natAbs ≤ bound) :
    (operator.onInts a b).natAbs ≤ bound ^ 2 := by
  have double : bound + bound ≤ bound ^ 2 :=
    calc bound + bound
        = 2 * bound := (Nat.two_mul bound).symm
      _ ≤ bound * bound := Nat.mul_le_mul_right bound two
      _ = bound ^ 2 := (Nat.pow_two bound).symm
  cases operator with
  | add =>
    have sum := Int.natAbs_add_le a b
    rw [onInts]
    omega
  | subtract =>
    have difference := Int.natAbs_sub_le a b
    rw [onInts]
    omega
  | multiply =>
    rw [onInts, Int.natAbs_mul, Nat.pow_two]
    exact Nat.mul_le_mul first second

namespace Term
open Decimal (Fits)

/-- How many operations stand around one another at most. -/
def levels : Term → Nat
  | .literal _ => 0
  | .keyword _ operand => operand.levels
  | .operation _ left right => max left.levels right.levels + 1

/-! ## Subterms -/

theorem self_mem_subterms (term : Term) : term ∈ term.subterms := by
  cases term <;> exact List.mem_cons_self

theorem left_mem_subterms (token : Token) (left right : Term) :
    left ∈ (operation token left right).subterms :=
  List.mem_cons_of_mem _ (List.mem_append_left _ left.self_mem_subterms)

theorem right_mem_subterms (token : Token) (left right : Term) :
    right ∈ (operation token left right).subterms :=
  List.mem_cons_of_mem _ (List.mem_append_right _ right.self_mem_subterms)

/-- What is part of a part is part of the whole. -/
theorem mem_subterms_trans {inner node term : Term} (mem : inner ∈ node.subterms)
    (part : node ∈ term.subterms) : inner ∈ term.subterms := by
  induction term with
  | literal token =>
    obtain rfl := List.mem_singleton.mp part
    exact mem
  | keyword token operand ih =>
    rcases List.mem_cons.mp part with rfl | part
    · exact mem
    · exact List.mem_cons_of_mem _ (ih part)
  | operation token left right ihl ihr =>
    rcases List.mem_cons.mp part with rfl | part
    · exact mem
    · rcases List.mem_append.mp part with part | part
      · exact List.mem_cons_of_mem _ (List.mem_append_left _ (ihl part))
      · exact List.mem_cons_of_mem _ (List.mem_append_right _ (ihr part))

theorem levels_le_of_mem {node term : Term} (part : node ∈ term.subterms) :
    node.levels ≤ term.levels := by
  induction term with
  | literal token =>
    obtain rfl := List.mem_singleton.mp part
    exact Nat.le_refl _
  | keyword token operand ih =>
    rcases List.mem_cons.mp part with rfl | part
    · exact Nat.le_refl _
    · exact ih part
  | operation token left right ihl ihr =>
    rcases List.mem_cons.mp part with rfl | part
    · exact Nat.le_refl _
    · rw [levels]
      rcases List.mem_append.mp part with part | part
      · exact (ihl part).trans (by omega)
      · exact (ihr part).trans (by omega)

/-! ## Magnitudes -/

/-- No literal stands for more than `bound`. -/
def LiteralsWithin (bound : Nat) (term : Term) : Prop :=
  ∀ token, literal token ∈ term.subterms → (literal token).exact.natAbs ≤ bound

theorem LiteralsWithin.part {bound : Nat} {node term : Term} (within : term.LiteralsWithin bound)
    (part : node ∈ term.subterms) : node.LiteralsWithin bound :=
  fun token mem => within token (mem_subterms_trans mem part)

section Bounds
variable {term : Term} {bound levels : Nat}

/-- A greater exponent allows more. -/
theorem pow_two_pow_le (two : 2 ≤ bound) {few many : Nat} (le : few ≤ many) :
    bound ^ 2 ^ few ≤ bound ^ 2 ^ many :=
  Nat.pow_le_pow_right (by omega) (Nat.pow_le_pow_right (by decide) le)

/-- By induction on the term; with each level of operations the exponent doubles. -/
theorem natAbs_exact_le (two : 2 ≤ bound) (within : term.LiteralsWithin bound)
    (few : term.levels ≤ levels) : term.exact.natAbs ≤ bound ^ 2 ^ levels := by
  induction term generalizing levels with
  | literal token =>
    have own := within token (self_mem_subterms _)
    have grows := pow_two_pow_le two (Nat.zero_le levels)
    rw [Nat.pow_zero, Nat.pow_one] at grows
    exact own.trans grows
  | keyword token operand ih =>
    exact ih (within.part (List.mem_cons_of_mem _ operand.self_mem_subterms)) few
  | operation token left right ihl ihr =>
    obtain ⟨below, rfl⟩ : ∃ below, levels = below + 1 :=
      ⟨levels - 1, by rw [Term.levels] at few; omega⟩
    have operands : max left.levels right.levels ≤ below := Nat.le_of_succ_le_succ few
    have first : left.exact.natAbs ≤ bound ^ 2 ^ below :=
      ihl (within.part (left_mem_subterms token left right)) (by omega)
    have second : right.exact.natAbs ≤ bound ^ 2 ^ below :=
      ihr (within.part (right_mem_subterms token left right)) (by omega)
    have two' : 2 ≤ bound ^ 2 ^ below := two.trans (Nat.le_self_pow (by positivity) bound)
    rw [Nat.pow_succ, Nat.pow_mul, exact]
    split
    · next operator known => exact operator.natAbs_onInts_le two' first second
    · exact Nat.zero_le _

/-- Where the bound is a word, both ways of evaluation give the exact value. -/
theorem value_of_small (supported : term.Supported) (two : 2 ≤ bound)
    (within : term.LiteralsWithin bound)
    (few : term.levels ≤ levels) (small : bound ^ 2 ^ levels ≤ 9223372036854775807) :
    ∃ v, v.toInt = term.exact ∧ term.value .checked = .ok v ∧ term.value .wrapping = .ok v := by
  have fits : ∀ token left right, operation token left right ∈ term.subterms →
      Fits (operation token left right).exact := by
    intro token left right part
    have le := natAbs_exact_le two (within.part part) ((levels_le_of_mem part).trans few)
    rw [Decimal.fits_iff]
    omega
  obtain ⟨v, success, same⟩ := (value_checked supported).2 (find?_exceeds_eq_none.mpr fits)
  refine ⟨v, same, success, ?_⟩
  rw [value_wrapping supported, ← same, Int64.ofInt_toInt]

end Bounds

end Term

end PrefixArith
