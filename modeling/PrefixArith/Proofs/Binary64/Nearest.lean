import Mathlib.Algebra.Order.Field.Power
import Mathlib.Data.Int.Log
import Mathlib.Data.Rat.Cast.Order
import Mathlib.Data.Rat.Floor
import Mathlib.Tactic.FieldSimp
import Mathlib.Tactic.Linarith
import Mathlib.Tactic.NormNum
import Mathlib.Tactic.Positivity
import PrefixArith.Binary64.Read

/-!
# Reading gives the nearest number

A number of the format is what all values around it round to: those up to half way to its
neighbours, ends included if its significand is even (`RoundsTo`). A fraction with such a value is
read as that number (`ofFraction_of_roundsTo`), and every fraction as some number of the format
(`formed_ofFraction`).
-/
namespace PrefixArith.Binary64

/-! ## Fractions and logarithms -/

theorem cast_shiftLeft (n k : Nat) : ((n <<< k : Nat) : ℚ) = n * 2 ^ k := by
  rw [Nat.shiftLeft_eq]
  push_cast
  rfl

/-- An exponent is a natural number or the negative of a positive one. -/
theorem exponent_cases (exponent : Int) :
    (∃ k : Nat, exponent = k) ∨ ∃ k : Nat, 0 < k ∧ exponent = -(k : Int) := by
  by_cases natural : 0 ≤ exponent
  · exact .inl ⟨exponent.toNat, by omega⟩
  · exact .inr ⟨(-exponent).toNat, by omega, by omega⟩

theorem two_zpow_pos (power : Int) : (0 : ℚ) < 2 ^ power := zpow_pos (by norm_num) power

theorem fraction_value (significand : Nat) (exponent : Int) :
    0 < (fraction significand exponent).2 ∧
      ((fraction significand exponent).1 : ℚ) / (fraction significand exponent).2 =
        significand * 2 ^ exponent := by
  obtain ⟨k, rfl⟩ | ⟨k, some, rfl⟩ := exponent_cases exponent
  · rw [fraction, if_pos (Int.natCast_nonneg k), Int.toNat_natCast]
    simp [cast_shiftLeft]
  · have negative : ¬ (0 : Int) ≤ -k := by omega
    rw [fraction, if_neg negative, Int.neg_neg, Int.toNat_natCast]
    simp [Nat.shiftLeft_eq, div_eq_mul_inv]

theorem belowPower_iff {num den : Nat} (den0 : 0 < den) (power : Int) :
    belowPower num den power = true ↔ (num : ℚ) / den < 2 ^ power := by
  have cast0 : (0 : ℚ) < den := by exact_mod_cast den0
  obtain ⟨k, rfl⟩ | ⟨k, some, rfl⟩ := exponent_cases power
  · rw [belowPower, if_pos (Int.natCast_nonneg k), Int.toNat_natCast, decide_eq_true_iff,
      ← Nat.cast_lt (α := ℚ), cast_shiftLeft, div_lt_iff₀ cast0, zpow_natCast, mul_comm]
  · have negative : ¬ (0 : Int) ≤ -k := by omega
    have power0 : (0 : ℚ) < 2 ^ k := by positivity
    rw [belowPower, if_neg negative, Int.neg_neg, Int.toNat_natCast, decide_eq_true_iff,
      ← Nat.cast_lt (α := ℚ), cast_shiftLeft, div_lt_iff₀ cast0, zpow_neg, zpow_natCast,
      inv_mul_eq_div, lt_div_iff₀ power0]

/-- A quotient lies between two powers that its parts tell. -/
theorem log2_quotient {num den : Nat} (num0 : 0 < num) (den0 : 0 < den) :
    (2 : ℚ) ^ ((num.log2 : Int) - den.log2 - 1) < num / den ∧
      (num : ℚ) / den < 2 ^ ((num.log2 : Int) - den.log2 + 1) := by
  have two : (2 : ℚ) ≠ 0 := by norm_num
  have cast0 : (0 : ℚ) < den := by exact_mod_cast den0
  have numLow : (2 : ℚ) ^ num.log2 ≤ num := by exact_mod_cast Nat.log2_self_le num0.ne'
  have numHigh : (num : ℚ) < 2 ^ (num.log2 + 1) := by exact_mod_cast Nat.lt_log2_self
  have denLow : (2 : ℚ) ^ den.log2 ≤ den := by exact_mod_cast Nat.log2_self_le den0.ne'
  have denHigh : (den : ℚ) < 2 ^ (den.log2 + 1) := by exact_mod_cast Nat.lt_log2_self
  have low : (num.log2 : Int) - den.log2 - 1 = num.log2 - (den.log2 + 1 : Nat) := by omega
  have high : (num.log2 : Int) - den.log2 + 1 = (num.log2 + 1 : Nat) - den.log2 := by omega
  rw [low, high, zpow_sub₀ two, zpow_sub₀ two, zpow_natCast, zpow_natCast, zpow_natCast,
    zpow_natCast]
  constructor
  · rw [div_lt_div_iff₀ (by positivity) cast0]
    calc (2 : ℚ) ^ num.log2 * den ≤ num * den := by gcongr
      _ < num * 2 ^ (den.log2 + 1) := by gcongr
  · rw [div_lt_div_iff₀ cast0 (by positivity)]
    calc (num : ℚ) * 2 ^ den.log2 ≤ num * den := by gcongr
      _ < 2 ^ (num.log2 + 1) * den := by gcongr

theorem two_zpow_le_iff {value : ℚ} (some : 0 < value) (power : Int) :
    2 ^ power ≤ value ↔ power ≤ Int.log 2 value := by
  rw [← Int.zpow_le_iff_le_log (by decide) some, Nat.cast_ofNat]

theorem lt_two_zpow_iff {value : ℚ} (some : 0 < value) (power : Int) :
    value < 2 ^ power ↔ Int.log 2 value < power := by
  rw [← Int.lt_zpow_iff_log_lt (by decide) some, Nat.cast_ofNat]

theorem floorLog_eq_log {num den : Nat} (num0 : 0 < num) (den0 : 0 < den) :
    floorLog num den = Int.log 2 ((num : ℚ) / den) := by
  have some : (0 : ℚ) < num / den := by positivity
  obtain ⟨low, high⟩ := log2_quotient num0 den0
  have least := (two_zpow_le_iff some _).mp low.le
  have greatest := (lt_two_zpow_iff some _).mp high
  unfold floorLog
  dsimp only
  split
  · next below =>
    rw [belowPower_iff den0, lt_two_zpow_iff some] at below
    omega
  · next reached =>
    rw [belowPower_iff den0, not_lt, two_zpow_le_iff some] at reached
    omega

/-! ## The nearest integer -/

/-- An integer is the nearest one to a quotient that is not farther than a half away, and nearer if
the integer is odd. -/
theorem nearestEven_of_near {num den n : Nat} (den0 : 0 < den) (low : (n : ℚ) - 1 / 2 ≤ num / den)
    (high : (num : ℚ) / den ≤ n + 1 / 2)
    (nearer : n % 2 = 1 → (n : ℚ) - 1 / 2 < num / den ∧ (num : ℚ) / den < n + 1 / 2) :
    nearestEven num den = n := by
  have cast0 : (0 : ℚ) < den := by exact_mod_cast den0
  have lowNat : 2 * (n * den) ≤ 2 * num + den := by
    rw [le_div_iff₀ cast0] at low
    have cast : (2 * (n * den) : ℚ) ≤ 2 * num + den := by linarith
    exact_mod_cast cast
  have highNat : 2 * num ≤ 2 * (n * den) + den := by
    rw [div_le_iff₀ cast0] at high
    have cast : (2 * num : ℚ) ≤ 2 * (n * den) + den := by linarith
    exact_mod_cast cast
  have nearerNat : n % 2 = 1 → 2 * (n * den) < 2 * num + den ∧ 2 * num < 2 * (n * den) + den := by
    intro odd
    obtain ⟨below, above⟩ := nearer odd
    rw [lt_div_iff₀ cast0] at below
    rw [div_lt_iff₀ cast0] at above
    have castLow : (2 * (n * den) : ℚ) < 2 * num + den := by linarith
    have castHigh : (2 * num : ℚ) < 2 * (n * den) + den := by linarith
    exact ⟨by exact_mod_cast castLow, by exact_mod_cast castHigh⟩
  have parts : num / den * den + num % den = num := by
    rw [Nat.mul_comm]
    exact Nat.div_add_mod num den
  have rest := Nat.mod_lt num den0
  rw [nearestEven]
  generalize num / den = quotient at parts
  generalize num % den = remainder at parts rest
  -- The integer is the quotient or the one behind it.
  have least : quotient ≤ n := by
    by_contra less
    have apart : (n + 1) * den ≤ quotient * den := Nat.mul_le_mul_right den (by omega)
    rw [Nat.add_mul, Nat.one_mul] at apart
    omega
  have greatest : n ≤ quotient + 1 := by
    by_contra more
    have apart : (quotient + 2) * den ≤ n * den := Nat.mul_le_mul_right den (by omega)
    rw [Nat.add_mul] at apart
    omega
  obtain rfl | rfl : n = quotient ∨ n = quotient + 1 := by omega
  · have below : ¬ (den < 2 * remainder ∨ den = 2 * remainder ∧ n % 2 = 1) := by omega
    exact if_neg below
  · rw [Nat.add_mul, Nat.one_mul] at lowNat highNat nearerNat
    have above : den < 2 * remainder ∨ den = 2 * remainder ∧ quotient % 2 = 1 := by omega
    exact if_pos above

theorem nearestEven_bounds {num den n : Nat} (den0 : 0 < den) :
    ((n : ℚ) ≤ num / den → n ≤ nearestEven num den) ∧
      ((num : ℚ) / den ≤ n → nearestEven num den ≤ n) := by
  have cast0 : (0 : ℚ) < den := by exact_mod_cast den0
  rw [le_div_iff₀ cast0, div_le_iff₀ cast0]
  norm_cast
  have parts := Nat.div_add_mod' num den
  rw [nearestEven]
  constructor
  · intro low
    have quotient : n ≤ num / den := (Nat.le_div_iff_mul_le den0).mpr low
    split
    · omega
    · exact quotient
  · intro high
    split
    · next up =>
      -- A quotient is only rounded up if it is not whole.
      have whole : num / den < n := by
        rw [← Nat.mul_lt_mul_right den0]
        omega
      exact whole
    · exact Nat.div_le_of_le_mul (by rwa [Nat.mul_comm])

/-! ## Values that round to a number -/

/-- A finite number of the format: 53 significant bits, fewer only at the least exponent. -/
structure Finite (significand : Nat) (exponent : Int) : Prop where
  bits : significand < 2 ^ 53
  least : -1074 ≤ exponent
  greatest : exponent ≤ 971
  full : 2 ^ 52 ≤ significand ∨ exponent = -1074

/-- A finite number has a significand and an exponent of the format. -/
def Formed : Binary64 → Prop
  | .finite _ significand exponent => Finite significand exponent
  | _ => True

/-- Half way to the number below. Below a power of two the numbers are twice as dense, unless the
exponent is already the least. -/
def lower (significand : Nat) (exponent : Int) : ℚ :=
  if significand = 2 ^ 52 ∧ -1074 < exponent then (significand - 1 / 4) * 2 ^ exponent
  else (significand - 1 / 2) * 2 ^ exponent

/-- Half way to the number above. -/
def upper (significand : Nat) (exponent : Int) : ℚ := (significand + 1 / 2) * 2 ^ exponent

/-- The number is the nearest one to the value. Of two equally near ones that is the one with an
even significand. -/
def RoundsTo (value : ℚ) (significand : Nat) (exponent : Int) : Prop :=
  if significand % 2 = 0 then
    lower significand exponent ≤ value ∧ value ≤ upper significand exponent
  else lower significand exponent < value ∧ value < upper significand exponent

section Rounding
variable {value : ℚ} {significand : Nat} {exponent : Int}

theorem RoundsTo.bounds (rounds : RoundsTo value significand exponent) :
    lower significand exponent ≤ value ∧ value ≤ upper significand exponent := by
  unfold RoundsTo at rounds
  split at rounds
  · exact rounds
  · exact ⟨rounds.1.le, rounds.2.le⟩

theorem RoundsTo.of_odd (rounds : RoundsTo value significand exponent) (odd : significand % 2 = 1) :
    lower significand exponent < value ∧ value < upper significand exponent := by
  have some : ¬ significand % 2 = 0 := by omega
  rwa [RoundsTo, if_neg some] at rounds

theorem lower_ge (significand : Nat) (exponent : Int) :
    (significand - 1 / 2) * 2 ^ exponent ≤ lower significand exponent := by
  have power := two_zpow_pos exponent
  unfold lower
  split
  · exact mul_le_mul_of_nonneg_right (by linarith) power.le
  · exact le_refl _

/-- What a value that rounds to the number is in units of its last place. -/
theorem RoundsTo.scaled (rounds : RoundsTo value significand exponent) :
    ((significand : ℚ) - 1 / 2 ≤ value / 2 ^ exponent ∧
      value / 2 ^ exponent ≤ significand + 1 / 2) ∧
      (significand % 2 = 1 →
        (significand : ℚ) - 1 / 2 < value / 2 ^ exponent ∧
          value / 2 ^ exponent < significand + 1 / 2) := by
  have power := two_zpow_pos exponent
  have low := lower_ge significand exponent
  rw [le_div_iff₀ power, div_le_iff₀ power, lt_div_iff₀ power, div_lt_iff₀ power]
  refine ⟨⟨low.trans rounds.bounds.1, rounds.bounds.2⟩, fun odd => ?_⟩
  obtain ⟨below, above⟩ := rounds.of_odd odd
  exact ⟨low.trans_lt below, above⟩

end Rounding

/-! ## Reading a fraction -/

section Reading
variable {num den : Nat} {exponent : Int}

/-- The significand that a fraction is rounded to, in units of a given power of two. -/
def significandOf (num den : Nat) (exponent : Int) : Nat :=
  if 0 ≤ exponent then nearestEven num (den <<< exponent.toNat)
  else nearestEven (num <<< (-exponent).toNat) den

/-- That is the integer nearest to the fraction in these units. -/
theorem significandOf_eq (den0 : 0 < den) (num : Nat) (exponent : Int) :
    ∃ num' den' : Nat, 0 < den' ∧ (num' : ℚ) / den' = num / den / 2 ^ exponent ∧
      significandOf num den exponent = nearestEven num' den' := by
  obtain ⟨k, rfl⟩ | ⟨k, some, rfl⟩ := exponent_cases exponent
  · refine ⟨num, den <<< k, ?_, ?_, ?_⟩
    · rw [Nat.shiftLeft_eq]
      positivity
    · rw [cast_shiftLeft, zpow_natCast, div_div]
    · rw [significandOf, if_pos (Int.natCast_nonneg k), Int.toNat_natCast]
  · have negative : ¬ (0 : Int) ≤ -k := by omega
    refine ⟨num <<< k, den, den0, ?_, ?_⟩
    · rw [cast_shiftLeft, zpow_neg, zpow_natCast, div_inv_eq_mul, div_mul_eq_mul_div]
    · rw [significandOf, if_neg negative, Int.neg_neg, Int.toNat_natCast]

theorem significandOf_of_near (den0 : 0 < den) {n : Nat}
    (near : (n : ℚ) - 1 / 2 ≤ num / den / 2 ^ exponent ∧ (num : ℚ) / den / 2 ^ exponent ≤ n + 1 / 2)
    (nearer : n % 2 = 1 →
      (n : ℚ) - 1 / 2 < num / den / 2 ^ exponent ∧ (num : ℚ) / den / 2 ^ exponent < n + 1 / 2) :
    significandOf num den exponent = n := by
  obtain ⟨num', den', den0', value, own⟩ := significandOf_eq den0 num exponent
  rw [← value] at near nearer
  rw [own, nearestEven_of_near den0' near.1 near.2 nearer]

/-- A fraction is rounded in units of the power of two 52 places below its own, or of the least one.
A significand that gets a bit more than it may have moves on to the next power. -/
theorem ofFraction_eq (num0 : 0 < num) (den0 : 0 < den) (negative : Bool) {least : Int}
    (place : max (Int.log 2 ((num : ℚ) / den) - 52) (-1074) = least) :
    ofFraction negative num den =
      if significandOf num den least = 2 ^ 53 then
        if 971 < least + 1 then .infinite negative else .finite negative (2 ^ 52) (least + 1)
      else if 971 < least then .infinite negative
      else .finite negative (significandOf num den least) least := by
  rw [← floorLog_eq_log num0 den0] at place
  unfold ofFraction
  rw [if_neg num0.ne']
  dsimp only
  have full : (1 <<< 53 : Nat) = 2 ^ 53 := rfl
  rw [place, ← significandOf, full]
  by_cases carried : significandOf num den least = 2 ^ 53
  · rw [if_pos carried, if_pos carried]
    rfl
  · rw [if_neg carried, if_neg carried]

/-- The power of two that is the unit for a value that rounds to the number is that of the number,
or half of it just below a power of two. -/
theorem place_of_roundsTo {value : ℚ} {significand : Nat} (finite : Finite significand exponent)
    (some : 0 < value) (rounds : RoundsTo value significand exponent) :
    max (Int.log 2 value - 52) (-1074) = exponent ∨
      max (Int.log 2 value - 52) (-1074) = exponent - 1 ∧ significand = 2 ^ 52 ∧
        -1074 < exponent ∧ value < 2 ^ (exponent + 52) := by
  have two : (2 : ℚ) ≠ 0 := by norm_num
  have power := two_zpow_pos exponent
  have least := finite.least
  obtain ⟨low, high⟩ := rounds.bounds
  have below : Int.log 2 value < exponent + 53 := by
    rw [← lt_two_zpow_iff some, zpow_add₀ two, mul_comm]
    have bits : ((significand : ℚ) + 1) ≤ 2 ^ 53 := by exact_mod_cast finite.bits
    refine high.trans_lt (mul_lt_mul_of_pos_right ?_ power)
    norm_num at bits ⊢
    linarith
  by_cases reached : 2 ^ (exponent + 52) ≤ value
  · rw [two_zpow_le_iff some] at reached
    left
    omega
  · rw [not_le] at reached
    have less := (lt_two_zpow_iff some _).mp reached
    rcases finite.full with full | least
    · by_cases more : -1074 < exponent
      · right
        have own : significand = 2 ^ 52 := by
          by_contra other
          have next : 4503599627370497 ≤ significand := by omega
          have above : (4503599627370497 : ℚ) ≤ significand := by exact_mod_cast next
          have inside := (lower_ge significand exponent).trans (low.trans reached.le)
          rw [zpow_add₀ two, mul_comm ((2 : ℚ) ^ exponent)] at inside
          have small := le_of_mul_le_mul_right inside power
          norm_num at small
          linarith
        have half : 2 ^ (exponent + 51) ≤ value := by
          refine le_trans ?_ low
          rw [lower, if_pos ⟨own, more⟩, own, zpow_add₀ two, mul_comm ((2 : ℚ) ^ exponent)]
          refine mul_le_mul_of_nonneg_right ?_ power.le
          norm_num
        rw [two_zpow_le_iff some] at half
        exact ⟨by omega, own, more, reached⟩
      · left
        omega
    · left
      omega

/-- A fraction with a value that rounds to a number is read as that number. -/
theorem ofFraction_of_roundsTo {significand : Nat} (finite : Finite significand exponent)
    (num0 : 0 < num) (den0 : 0 < den) (rounds : RoundsTo (num / den) significand exponent)
    (negative : Bool) : ofFraction negative num den = .finite negative significand exponent := by
  have some : (0 : ℚ) < num / den := by positivity
  have bits := finite.bits
  have greatest := finite.greatest
  obtain place | ⟨place, rfl, more, below⟩ := place_of_roundsTo finite some rounds
  · obtain ⟨near, nearer⟩ := rounds.scaled
    rw [ofFraction_eq num0 den0 negative place, significandOf_of_near den0 near nearer,
      if_neg (by omega), if_neg (by omega)]
  · -- Half a unit is enough to reach the power of two from below.
    have carried : significandOf num den (exponent - 1) = 2 ^ 53 := by
      have two : (2 : ℚ) ≠ 0 := by norm_num
      have power := two_zpow_pos (exponent - 1)
      have unit : (2 : ℚ) ^ exponent = 2 * 2 ^ (exponent - 1) := by
        rw [← zpow_one_add₀ two]
        congr 1
        omega
      have low := rounds.bounds.1
      rw [lower, if_pos ⟨rfl, more⟩, unit] at low
      rw [zpow_add₀ two, unit] at below
      refine significandOf_of_near den0 ⟨?_, ?_⟩ (by norm_num)
      · rw [le_div_iff₀ power]
        refine le_trans (le_of_eq ?_) low
        push_cast
        ring
      · rw [div_le_iff₀ power]
        refine below.le.trans ?_
        norm_num
        nlinarith
    have own : exponent - 1 + 1 = exponent := by omega
    rw [ofFraction_eq num0 den0 negative place, if_pos carried, own, if_neg (by omega)]

/-- A value has a significand of 53 bits in units of the power of two 52 places below its own, or of
the least one if that is greater. It may be rounded up to the next power. -/
theorem significandOf_bounds (num0 : 0 < num) (den0 : 0 < den)
    (place : max (Int.log 2 ((num : ℚ) / den) - 52) (-1074) = exponent) :
    significandOf num den exponent ≤ 2 ^ 53 ∧
      (2 ^ 52 ≤ significandOf num den exponent ∨ exponent = -1074) := by
  have two : (2 : ℚ) ≠ 0 := by norm_num
  have some : (0 : ℚ) < num / den := by positivity
  have power := two_zpow_pos exponent
  obtain ⟨num', den', den0', value, own⟩ := significandOf_eq den0 num exponent
  rw [own]
  constructor
  · apply (nearestEven_bounds den0').2
    have below := (lt_two_zpow_iff some (exponent + 53)).mpr (by omega)
    rw [zpow_add₀ two, mul_comm] at below
    rw [value, div_le_iff₀ power]
    exact_mod_cast below.le
  · by_cases least : exponent = -1074
    · exact .inr least
    · left
      apply (nearestEven_bounds den0').1
      have above := (two_zpow_le_iff some (exponent + 52)).mpr (by omega)
      rw [zpow_add₀ two, mul_comm] at above
      rw [value, le_div_iff₀ power]
      exact_mod_cast above

/-- Fractions are read as numbers of the format. -/
theorem formed_ofFraction (den0 : 0 < den) (negative : Bool) :
    (ofFraction negative num den).Formed := by
  by_cases num0 : 0 < num
  · obtain ⟨bits, full⟩ := significandOf_bounds num0 den0 rfl
    have least := le_max_right (Int.log 2 ((num : ℚ) / den) - 52) (-1074)
    rw [ofFraction_eq num0 den0 negative rfl]
    split
    · split
      · exact trivial
      · next within => exact ⟨by decide, by omega, by omega, .inl (Nat.le_refl _)⟩
    · split
      · exact trivial
      · next within => exact ⟨by omega, least, by omega, full⟩
  · have zero := Nat.eq_zero_of_not_pos num0
    rw [ofFraction, if_pos zero]
    exact ⟨by decide, by decide, by decide, .inr rfl⟩

end Reading

end PrefixArith.Binary64
