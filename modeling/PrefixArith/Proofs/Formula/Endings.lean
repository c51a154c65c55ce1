import Mathlib.Algebra.Order.Ring.Nat
import PrefixArith.Proofs.Formula.Batch
import PrefixArith.Proofs.Formula.Choices
import PrefixArith.Proofs.Random.Endings

/-!
# Random formulas come to an end

An operation takes a choice for its operator and two operands, and the levels of the settings bound
how many of them stand inside one another. So on every tape where zeros keep coming a formula takes
a bounded number of words (`draw_endsWithin`), and on those that go on with multiples of a step in
particular.
-/
namespace PrefixArith.Formula

open PrefixArith.Random

section Ends
variable {tape : Nat → UInt64} {enough bound : Nat}

theorem drawWith_endsWithin (zeros : ZeroWithin tape enough) {drawOperand : Nat → Draw Expression}
    (operand : EndsWithin tape enough bound drawOperand) :
    EndsWithin tape enough (enough + (bound + bound)) fun patience =>
      drawWith patience (drawOperand patience) := by
  have operator : EndsWithin tape enough enough drawOperator :=
    (below_endsWithin zeros 3).map operatorAt
  exact operator.bind fun operator => operand.bind fun left =>
    operand.map (Expression.operation operator left)

/-- With each level the words at most double, but for those of an operator and two decisions. -/
theorem drawOperation_endsWithin (zeros : ZeroWithin tape enough) (settings : Settings)
    (levels : Nat) :
    ∃ bound, bound + 5 * enough ≤ 2 ^ (levels + 3) * enough ∧
      EndsWithin tape enough bound fun patience => drawOperation settings patience levels := by
  have literal : EndsWithin tape enough enough (drawLiteral settings) :=
    (between_endsWithin zeros settings.least settings.greatest).map Expression.literal
  have some := zeros.positive
  induction levels with
  | zero => exact ⟨enough + (enough + enough), by omega, drawWith_endsWithin zeros literal⟩
  | succ levels ih =>
    obtain ⟨bound, few, operation⟩ := ih
    have decided (nests : Bool) : EndsWithin tape enough (max bound enough) fun patience =>
        if nests then drawOperation settings patience levels
          else drawLiteral settings patience := by
      cases nests with
      | true => exact operation.mono (Nat.le_max_left _ _)
      | false => exact literal.mono (Nat.le_max_right _ _)
    have operand := (chance_endsWithin settings.nesting).bind decided
    refine ⟨_, ?_, drawWith_endsWithin zeros operand⟩
    have grows : 2 ^ (levels + 1 + 3) * enough = 2 * (2 ^ (levels + 3) * enough) := by
      rw [Nat.add_right_comm, Nat.pow_succ, Nat.mul_comm _ 2, Nat.mul_assoc]
    rw [grows]
    omega

theorem draw_endsWithin (zeros : ZeroWithin tape enough) (settings : Settings) :
    EndsWithin tape enough (2 ^ (max 1 settings.levels + 2) * enough) (draw settings) := by
  obtain ⟨bound, few, operation⟩ := drawOperation_endsWithin zeros settings (settings.levels - 1)
  have levels : settings.levels - 1 + 3 = max 1 settings.levels + 2 := by omega
  rw [levels] at few
  exact (operation.map text).mono (by omega)

end Ends

/-- With valid settings every formula is drawn after finitely many words, from a source that hands
out the words of a list and then the multiples of a step, however many of them have been taken.
Wherever it stands, each uniform choice meets a word that it accepts, with a patience that does not
depend on the choice; and the levels of the settings bound both the expression and the number of
words. What is drawn does not depend on the patience, and guards against empty ranges and improper
probabilities never stop it. -/
theorem every_draw_ends {settings : Settings} (valid : settings.error? = none) (words : List UInt64)
    (taken : Nat) :
    let tape := (Source.listed words).word
    let enough := words.length + 18446744073709551616
    (∀ range, ∃ n, n < enough ∧ ∃ number, selected? range (tape (taken + n)) = some number) ∧
    ∃ e count, e.levels ≤ max 1 settings.levels ∧ count ≤ 2 ^ (max 1 settings.levels + 2) * enough ∧
      ∀ patience, enough ≤ patience →
        (draw settings patience).run ⟨tape, taken⟩ = some (text e, ⟨tape, taken + count⟩) ∧
        (drawBy (Choices.uniform patience).guarded settings).run ⟨tape, taken⟩ =
          some (text e, ⟨tape, taken + count⟩) := by
  intro tape enough
  have zeros : ZeroWithin tape enough := zeroWithin_listed words
  constructor
  · intro range
    obtain ⟨n, inside, zero⟩ := zeros taken
    exact ⟨n, inside, 0, by rw [zero, selected?_zero]⟩
  · obtain ⟨formula, count, few, drawn⟩ := draw_endsWithin zeros settings taken
    obtain ⟨e, rfl, within⟩ := exists_text_of_draw valid (drawn enough (Nat.le_refl enough))
    refine ⟨e, count, by omega, few, fun patience reaches => ⟨drawn patience reaches, ?_⟩⟩
    rw [drawBy_guarded valid]
    exact drawn patience reaches

/-- Nesting is sure, literals are any words, and the words of the list are rejected for the first
operator. -/
theorem every_draw_ends_of_rejected :
    let settings : Settings :=
      { least := Int64.minValue, greatest := Int64.maxValue, nesting := .finite false 1 0,
        levels := 3 }
    let words : List UInt64 := [0, 0xFFFFFFFFFFFFFFFF, 0x5555555555555555]
    let tape := (Source.listed words).word
    let enough := words.length + 18446744073709551616
    settings.error? = none ∧ selected? 3 (tape 1) = none ∧ selected? 3 (tape 2) = none ∧
      ∃ e count, e.levels ≤ 3 ∧ count ≤ 32 * enough ∧
        ∀ patience, enough ≤ patience →
          (draw settings patience).run ⟨tape, 1⟩ = some (text e, ⟨tape, 1 + count⟩) ∧
          (drawBy (Choices.uniform patience).guarded settings).run ⟨tape, 1⟩ =
            some (text e, ⟨tape, 1 + count⟩) := by
  intro settings words tape enough
  have valid : settings.error? = none := by decide
  exact ⟨valid, by decide +kernel, by decide +kernel, (every_draw_ends valid words 1).2⟩

end PrefixArith.Formula
