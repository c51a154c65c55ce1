import PrefixArith.Proofs.Decimal
import PrefixArith.Random.Uniform

/-!
# What draws yield

A draw that yields something has taken each of its steps from the source that the step before it
left (`run_bind_eq_some`). Uniform choices stay in their range, and an event happens only if it may.
Whether draws return at all depends on their source; that is shown step by step for any property of
sources that the steps keep (`ReturnsOn`).
-/
namespace PrefixArith.Random

variable {α β : Type} {source after : Source}

/-! ## Steps -/

theorem run_bind_eq_some {first : Draw α} {next : α → Draw β} {b : β} :
    (first >>= next).run source = some (b, after) ↔
      ∃ a between, first.run source = some (a, between) ∧
        (next a).run between = some (b, after) := by
  rw [StateT.run_bind]
  change ((first.run source).bind fun step => (next step.1).run step.2) = some (b, after) ↔ _
  rw [Option.bind_eq_some_iff]
  exact Prod.exists

theorem run_pure_eq_some {a b : α} :
    (pure a : Draw α).run source = some (b, after) ↔ a = b ∧ source = after := by
  rw [StateT.run_pure]
  change some (a, source) = some (b, after) ↔ _
  rw [Option.some_inj, Prod.mk.injEq]

/-! ## Uniform choices -/

theorem selected?_lt {range n : Nat} {word : UInt64} (positive : 0 < range)
    (selected : selected? range word = some n) : n < range := by
  simp only [selected?] at selected
  split at selected
  · cases selected
    have bound : word.toNat < UInt64.size := word.toNat_lt_size
    exact Nat.div_lt_of_lt_mul (Nat.mul_lt_mul_of_pos_right bound positive)
  · cases selected

theorem below_lt {range patience n : Nat} (positive : 0 < range)
    (drawn : (below range patience).run source = some (n, after)) : n < range := by
  induction patience generalizing source with
  | zero => cases drawn
  | succ patience ih =>
    obtain ⟨word, rest, -, drawn⟩ := run_bind_eq_some.mp drawn
    split at drawn
    · next m selected =>
      obtain ⟨rfl, -⟩ := run_pure_eq_some.mp drawn
      exact selected?_lt positive selected
    · exact ih drawn

/-- A choice between two words in order lies between them. -/
theorem between_bounds {least greatest v : Int64} {patience : Nat}
    (ordered : least.toInt ≤ greatest.toInt)
    (drawn : (between least greatest patience).run source = some (v, after)) :
    least.toInt ≤ v.toInt ∧ v.toInt ≤ greatest.toInt := by
  have low := least.le_toInt
  have high := greatest.toInt_lt
  unfold between at drawn
  simp only at drawn
  split at drawn
  · next all =>
    have low' := v.le_toInt
    have high' := v.toInt_lt
    have size : UInt64.size = 18446744073709551616 := rfl
    omega
  · obtain ⟨n, rest, below, drawn⟩ := run_bind_eq_some.mp drawn
    obtain ⟨rfl, -⟩ := run_pure_eq_some.mp drawn
    have bound := below_lt (by omega) below
    have fits : Decimal.Fits (least.toInt + n) := by
      rw [Decimal.fits_iff]
      omega
    rw [Decimal.toInt_ofInt fits]
    omega

/-- An event happens only if its probability is not zero, and a sure one always does. -/
theorem chance_eq {probability : Binary64} {happens : Bool}
    (drawn : (chance probability).run source = some (happens, after)) :
    (probability.isOne = true → happens = true) ∧
      (happens = true → probability.isOne = true ∨ 0 < probability.scaled) := by
  unfold chance at drawn
  split at drawn
  · next sure =>
    obtain ⟨rfl, -⟩ := run_pure_eq_some.mp drawn
    exact ⟨fun _ => rfl, fun _ => .inl sure⟩
  · next unsure =>
    obtain ⟨word, rest, -, drawn⟩ := run_bind_eq_some.mp drawn
    obtain ⟨rfl, -⟩ := run_pure_eq_some.mp drawn
    refine ⟨fun sure => absurd sure unsure, fun hit => .inr ?_⟩
    simp only [decide_eq_true_eq] at hit
    omega

/-! ## Draws that return -/

/-- On every source with the property the draw yields something, and leaves such a source. -/
def ReturnsOn (property : Source → Prop) (draw : Draw α) : Prop :=
  ∀ source, property source → ∃ a after, draw.run source = some (a, after) ∧ property after

namespace ReturnsOn
variable {property : Source → Prop}

theorem ret (a : α) : ReturnsOn property (pure a : Draw α) :=
  fun source holds => ⟨a, source, rfl, holds⟩

theorem bind {first : Draw α} {next : α → Draw β} (returns : ReturnsOn property first)
    (each : ∀ a, ReturnsOn property (next a)) : ReturnsOn property (first >>= next) := by
  intro source holds
  obtain ⟨a, middle, step, holds⟩ := returns source holds
  obtain ⟨b, after, step', holds⟩ := each a middle holds
  exact ⟨b, after, run_bind_eq_some.mpr ⟨a, middle, step, step'⟩, holds⟩

end ReturnsOn

/-! ## Zeros -/

/-- The words still to come are all zero. -/
def Source.Zero (source : Source) : Prop := ∀ n, source.taken ≤ n → source.word n = 0

theorem nextWord_of_zero (zero : source.Zero) :
    ∃ rest, nextWord.run source = some (0, rest) ∧ rest.Zero := by
  refine ⟨⟨source.word, source.taken + 1⟩, ?_, fun n later => zero n (Nat.le_of_succ_le later)⟩
  have next : nextWord.run source = some (source.word source.taken, _) := rfl
  rw [next, zero source.taken (Nat.le_refl _)]

theorem nextWord_returnsOn_zero : ReturnsOn Source.Zero nextWord := by
  intro source zero
  obtain ⟨rest, step, zero⟩ := nextWord_of_zero zero
  exact ⟨0, rest, step, zero⟩

/-- The word zero is never rejected: it selects the first number. -/
theorem selected?_zero (range : Nat) : selected? range 0 = some 0 := by
  simp [selected?]

theorem below_returnsOn_zero (range patience : Nat) :
    ReturnsOn Source.Zero (below range (patience + 1)) := by
  intro source zero
  obtain ⟨rest, step, zero⟩ := nextWord_of_zero zero
  refine ⟨0, rest, run_bind_eq_some.mpr ⟨0, rest, step, ?_⟩, zero⟩
  rw [selected?_zero]
  rfl

theorem between_returnsOn_zero (least greatest : Int64) (patience : Nat) :
    ReturnsOn Source.Zero (between least greatest (patience + 1)) := by
  unfold between
  simp only
  split
  · exact nextWord_returnsOn_zero.bind fun word => .ret _
  · exact (below_returnsOn_zero _ patience).bind fun n => .ret _

theorem chance_returnsOn_zero (probability : Binary64) :
    ReturnsOn Source.Zero (chance probability) := by
  unfold chance
  split
  · exact .ret true
  · exact nextWord_returnsOn_zero.bind fun word => .ret _

end PrefixArith.Random
