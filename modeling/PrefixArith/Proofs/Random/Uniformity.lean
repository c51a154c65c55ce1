import Mathlib.Algebra.Order.Floor.Div
import Mathlib.Data.Set.Card
import Mathlib.Order.Interval.Set.Nat
import PrefixArith.Proofs.Random.Draws

/-!
# Uniform choices are uniform

Of all words that may come next, the same number selects each number of a range, and that number is
a power of two (`ncard_selected?`). The words that select a number follow one another: they are
those whose multiple of the range lies close enough behind that of the number.
-/
namespace PrefixArith.Random

/-! ## Leading zeros -/

/-- The zeros in front of a number that is written with 64 binary digits. -/
def leadingZeros (n : Nat) : Nat := (BitVec.ofNat 64 n).clz.toNat

section Count
variable {range : Nat}

theorem leadingZeros_eq (positive : 0 < range) (small : range < 2 ^ 64) :
    leadingZeros range = 63 - range.log2 := by
  have value : (BitVec.ofNat 64 range).toNat = range := Nat.mod_eq_of_lt small
  have nonzero : BitVec.ofNat 64 range ≠ 0#64 := by
    intro zero
    rw [zero] at value
    exact Nat.ne_of_lt positive value
  have few : leadingZeros range < 64 := BitVec.clz_lt_iff_ne_zero.mpr nonzero
  have low : 2 ^ (63 - leadingZeros range) ≤ range :=
    (BitVec.two_pow_sub_clz_le_toNat_of_ne_zero (by decide) nonzero).trans_eq value
  have high : range < 2 ^ (63 - leadingZeros range + 1) := by
    have bound := BitVec.toNat_lt_two_pow_sub_clz (x := BitVec.ofNat 64 range)
    rw [value] at bound
    rwa [show 63 - leadingZeros range + 1 = 64 - leadingZeros range by omega]
  have log : range.log2 = 63 - leadingZeros range :=
    (Nat.log2_eq_iff (Nat.ne_of_gt positive)).mpr ⟨low, high⟩
  omega

/-- The accepted low halves are those below the greatest multiple of the range by a power of two
that is not above the number of words. -/
theorem le_zone_iff (positive : 0 < range) (small : range < 2 ^ 64) {low : Nat} :
    low ≤ zone range ↔ low < range * 2 ^ leadingZeros range := by
  have some : 0 < range * 2 ^ leadingZeros range := Nat.mul_pos positive (Nat.two_pow_pos _)
  rw [zone, ← leadingZeros_eq positive small, Nat.shiftLeft_eq]
  omega

theorem mul_two_pow_leadingZeros_le (positive : 0 < range) (small : range < 2 ^ 64) :
    range * 2 ^ leadingZeros range ≤ 2 ^ 64 := by
  have few : range.log2 < 64 := (Nat.log2_lt (Nat.ne_of_gt positive)).mpr small
  calc range * 2 ^ leadingZeros range
      ≤ 2 ^ (range.log2 + 1) * 2 ^ leadingZeros range :=
        Nat.mul_le_mul_right _ (Nat.le_of_lt Nat.lt_log2_self)
    _ = 2 ^ 64 := by
        rw [leadingZeros_eq positive small, ← Nat.pow_add]
        congr 1
        omega

/-! ## Words -/

/-- A word selects a number if its multiple of the range lies behind that of the number, but not too
far. -/
theorem selected?_eq_some_iff (positive : 0 < range) (small : range < 2 ^ 64) {n : Nat}
    {word : UInt64} :
    selected? range word = some n ↔
      n * 2 ^ 64 ≤ word.toNat * range ∧
        word.toNat * range < n * 2 ^ 64 + range * 2 ^ leadingZeros range := by
  have bound := mul_two_pow_leadingZeros_le positive small
  have size : UInt64.size = 2 ^ 64 := rfl
  simp only [selected?, size, le_zone_iff positive small]
  have split := Nat.div_add_mod (word.toNat * range) (2 ^ 64)
  have low := Nat.mod_lt (word.toNat * range) (Nat.two_pow_pos 64)
  constructor
  · intro selects
    split at selects
    · next accepted =>
      cases selects
      rw [Nat.mul_comm (2 ^ 64)] at split
      omega
    · cases selects
  · rintro ⟨behind, near⟩
    have high : word.toNat * range / 2 ^ 64 = n :=
      Nat.div_eq_of_lt_le behind (by rw [Nat.succ_mul]; omega)
    rw [high] at split ⊢
    rw [if_pos]
    omega

/-- The least word that selects a number, if any does. -/
def firstWord (range n : Nat) : Nat := n * 2 ^ 64 ⌈/⌉ range

theorem firstWord_le_iff (positive : 0 < range) {n word : Nat} :
    firstWord range n ≤ word ↔ n * 2 ^ 64 ≤ word * range := by
  rw [firstWord, ceilDiv_le_iff_le_mul positive, Nat.mul_comm range]

theorem lt_firstWord_add_iff (positive : 0 < range) {n word more : Nat} :
    word < firstWord range n + more ↔ word * range < n * 2 ^ 64 + range * more := by
  have behind : firstWord range n ≤ word - more ↔ n * 2 ^ 64 ≤ (word - more) * range :=
    firstWord_le_iff positive
  by_cases some : more ≤ word
  · have split : word * range = (word - more) * range + range * more := by
      rw [Nat.mul_comm range, ← Nat.add_mul, Nat.sub_add_cancel some]
    omega
  · have less : word * range < range * more := by
      rw [Nat.mul_comm]
      exact Nat.mul_lt_mul_of_pos_left (Nat.lt_of_not_le some) positive
    omega

/-- Each number of the range is selected by as many words, one behind the other. -/
theorem ncard_selected? {n : Nat} (inside : n < range) (small : range < 2 ^ 64) :
    {word | selected? range word = some n}.ncard = 2 ^ leadingZeros range := by
  have positive : 0 < range := Nat.zero_lt_of_lt inside
  let words := Set.Ico (firstWord range n) (firstWord range n + 2 ^ leadingZeros range)
  -- these words are an interval, none of whose numbers is beyond the greatest word
  have chosen : {word | selected? range word = some n} = Set.preimage UInt64.toNat words := by
    ext word
    rw [Set.mem_ofPred_eq, selected?_eq_some_iff positive small, Set.mem_preimage, Set.mem_Ico,
      firstWord_le_iff positive, lt_firstWord_add_iff positive]
  have exist : words ⊆ Set.range UInt64.toNat := by
    rintro word ⟨-, near⟩
    rw [lt_firstWord_add_iff positive] at near
    have bound := mul_two_pow_leadingZeros_le positive small
    have fits : word * range < 2 ^ 64 * range :=
      calc word * range
          < n * 2 ^ 64 + 2 ^ 64 := by omega
        _ = (n + 1) * 2 ^ 64 := (Nat.succ_mul n (2 ^ 64)).symm
        _ ≤ range * 2 ^ 64 := Nat.mul_le_mul_right _ inside
        _ = 2 ^ 64 * range := Nat.mul_comm _ _
    exact ⟨UInt64.ofNat word, UInt64.toNat_ofNat_of_lt' (Nat.lt_of_mul_lt_mul_right fits)⟩
  have injective : Function.Injective UInt64.toNat := fun a b => UInt64.toNat_inj.mp
  rw [chosen, Set.ncard_preimage_of_injective_subset_range injective exist, Set.ncard_Ico_nat,
    Nat.add_sub_cancel_left]

end Count

/-! ## Words between two others -/

/-- What a word selects among those from `least` to `greatest`. -/
def selectedWord? (least greatest : Int64) (word : UInt64) : Option Int64 :=
  let range := (greatest.toInt - least.toInt + 1).toNat
  if range = UInt64.size then some word.toInt64
  else (selected? range word).map fun (n : Nat) => Int64.ofInt (least.toInt + n)

section Between
variable {least greatest v : Int64}

theorem selectedWord?_of_all (all : (greatest.toInt - least.toInt + 1).toNat = 2 ^ 64)
    (word : UInt64) :
    selectedWord? least greatest word = some word.toInt64 := if_pos all

/-- A number of the range stands for the word at that distance from the least one. -/
theorem selectedWord?_eq_some_iff (ordered : least.toInt ≤ greatest.toInt)
    (few : (greatest.toInt - least.toInt + 1).toNat < 2 ^ 64) {word : UInt64} :
    selectedWord? least greatest word = some v ↔
      least.toInt ≤ v.toInt ∧ v.toInt ≤ greatest.toInt ∧
        selected? (greatest.toInt - least.toInt + 1).toNat word =
          some (v.toInt - least.toInt).toNat := by
  have some : 0 < (greatest.toInt - least.toInt + 1).toNat := by omega
  have low := least.le_toInt
  have high := greatest.toInt_lt
  have part : (greatest.toInt - least.toInt + 1).toNat ≠ UInt64.size := Nat.ne_of_lt few
  rw [selectedWord?, if_neg part, Option.map_eq_some_iff]
  constructor
  · rintro ⟨n, selects, rfl⟩
    have inside := selected?_lt some selects
    have fits : Decimal.Fits (least.toInt + n) := by
      rw [Decimal.fits_iff]
      omega
    rw [Decimal.toInt_ofInt fits, selects, Option.some_inj]
    omega
  · rintro ⟨above, below, selects⟩
    refine ⟨_, selects, ?_⟩
    have distance : least.toInt + ((v.toInt - least.toInt).toNat : Int) = v.toInt := by omega
    rw [distance, Int64.ofInt_toInt]

/-- If there are fewer words between two others than words at all, each of them is selected by as
many. -/
theorem ncard_selectedWord? (above : least.toInt ≤ v.toInt) (below : v.toInt ≤ greatest.toInt)
    (few : (greatest.toInt - least.toInt + 1).toNat < 2 ^ 64) :
    {word | selectedWord? least greatest word = some v}.ncard =
      2 ^ leadingZeros (greatest.toInt - least.toInt + 1).toNat := by
  have inside : (v.toInt - least.toInt).toNat < (greatest.toInt - least.toInt + 1).toNat := by omega
  simp only [selectedWord?_eq_some_iff (above.trans below) few, above, below, true_and]
  exact ncard_selected? inside few

/-- If all words are between the two, each of them is selected by one. -/
theorem ncard_selectedWord?_of_all (all : (greatest.toInt - least.toInt + 1).toNat = 2 ^ 64)
    (v : Int64) :
    {word | selectedWord? least greatest word = some v}.ncard = 1 := by
  have only : {word | selectedWord? least greatest word = some v} = {v.toUInt64} := by
    ext word
    rw [Set.mem_ofPred_eq, selectedWord?_of_all all, Option.some_inj, Set.mem_singleton_iff]
    constructor
    · rintro rfl
      exact (UInt64.toUInt64_toInt64 word).symm
    · rintro rfl
      exact Int64.toInt64_toUInt64 v
  rw [only, Set.ncard_singleton]

end Between

end PrefixArith.Random
