import Mathlib.Algebra.Order.Floor.Semifield
import Mathlib.Data.Nat.Cast.Order.Field
import PrefixArith.Binary64.Shortest
import PrefixArith.Proofs.Binary64.Nearest
import PrefixArith.Proofs.Decimal

/-!
# The shortest digits

The search for digits goes from the place of the leading one to finer grids. It ends on the first
grid with a point that reads back, and takes the nearest of these (`shortest_spec`). Seventeen
digits are enough for every number (`onGrid_of_leading`).
-/
namespace PrefixArith.Binary64

/-! ## Exact values of what the search compares -/

theorem cast_tenTo (n : Nat) : (Decimal.tenTo n : ℚ) = 10 ^ n := by
  unfold Decimal.tenTo
  exact_mod_cast rfl

theorem ten_zpow_pos (power : Int) : (0 : ℚ) < 10 ^ power := zpow_pos (by norm_num) power

theorem decimalFraction_value (digits : Nat) (power : Int) :
    0 < (decimalFraction digits power).2 ∧
      ((decimalFraction digits power).1 : ℚ) / (decimalFraction digits power).2 =
        digits * 10 ^ power := by
  obtain ⟨k, rfl⟩ | ⟨k, some, rfl⟩ := exponent_cases power
  · rw [decimalFraction, if_pos (Int.natCast_nonneg k), Int.toNat_natCast]
    simp [cast_tenTo]
  · have negative : ¬ (0 : Int) ≤ -k := by omega
    rw [decimalFraction, if_neg negative, Int.neg_neg, Int.toNat_natCast]
    constructor
    · exact Nat.pow_pos (by decide)
    · simp [cast_tenTo, div_eq_mul_inv]

section Values
variable {significand : Nat} (exponent : Int)

theorem neighbourhood_den (significand : Nat) : 0 < (neighbourhood significand exponent).den :=
  (fraction_value 1 (exponent - 2)).1

/-- The bounds of a neighbourhood count quarters of the last place. -/
theorem quarters_value (significand count : Nat) :
    ((count * (fraction 1 (exponent - 2)).1 : Nat) : ℚ) / (neighbourhood significand exponent).den =
      count * (2 ^ exponent / 4) := by
  have unit : ((fraction 1 (exponent - 2)).1 : ℚ) / (neighbourhood significand exponent).den =
      (1 : Nat) * 2 ^ (exponent - 2) := (fraction_value 1 (exponent - 2)).2
  rw [Nat.cast_mul, mul_div_assoc, unit, zpow_sub₀ (by norm_num)]
  norm_num

theorem neighbourhood_mid (significand : Nat) :
    ((neighbourhood significand exponent).mid : ℚ) / (neighbourhood significand exponent).den =
      significand * 2 ^ exponent := by
  have value := quarters_value exponent significand (4 * significand)
  refine Eq.trans value ?_
  push_cast
  ring

theorem neighbourhood_high (significand : Nat) :
    ((neighbourhood significand exponent).high : ℚ) / (neighbourhood significand exponent).den =
      upper significand exponent := by
  have value := quarters_value exponent significand (4 * significand + 2)
  refine Eq.trans value ?_
  unfold upper
  push_cast
  ring

theorem neighbourhood_low (some : 0 < significand) :
    ((neighbourhood significand exponent).low : ℚ) / (neighbourhood significand exponent).den =
      lower significand exponent := by
  have value := quarters_value exponent significand
    (4 * significand - if significand = 2 ^ 52 ∧ -1074 < exponent then 1 else 2)
  refine Eq.trans value ?_
  unfold lower
  split
  · rw [Nat.cast_sub (by omega)]
    push_cast
    ring
  · rw [Nat.cast_sub (by omega)]
    push_cast
    ring

/-- The search tells whether a decimal number reads back. -/
theorem holds_iff (some : 0 < significand) (digits : Nat) (power : Int) :
    (neighbourhood significand exponent).holds digits power = true ↔
      RoundsTo (digits * 10 ^ power) significand exponent := by
  obtain ⟨den0, value⟩ := decimalFraction_value digits power
  have near0 := neighbourhood_den exponent significand
  have den0' : (0 : ℚ) < (decimalFraction digits power).2 := by exact_mod_cast den0
  have near0' : (0 : ℚ) < (neighbourhood significand exponent).den := by exact_mod_cast near0
  have closed : (neighbourhood significand exponent).closed = decide (significand % 2 = 0) := rfl
  rw [RoundsTo, ← neighbourhood_low exponent some, ← neighbourhood_high exponent, ← value,
    div_le_div_iff₀ near0' den0', div_le_div_iff₀ den0' near0', div_lt_div_iff₀ near0' den0',
    div_lt_div_iff₀ den0' near0', Neighbourhood.holds]
  dsimp only
  rw [closed]
  by_cases even : significand % 2 = 0
  · simp only [even, decide_true, if_true, decide_eq_true_iff]
    norm_cast
  · simp only [even, decide_false, if_false, Bool.false_eq_true, decide_eq_true_iff]
    norm_cast

/-- The digits on a grid are those of the number, rounded down. -/
theorem floorDigits_eq_floor (significand : Nat) (power : Int) :
    (neighbourhood significand exponent).floorDigits power =
      ⌊(significand * 2 ^ exponent / 10 ^ power : ℚ)⌋₊ := by
  obtain ⟨-, value⟩ := decimalFraction_value 1 power
  rw [Nat.cast_one, one_mul] at value
  rw [← neighbourhood_mid exponent, ← value, div_div_div_eq, ← Nat.cast_mul, ← Nat.cast_mul,
    Nat.floor_div_eq_div, Neighbourhood.floorDigits]

theorem nearerBelow_iff (significand digits : Nat) (power : Int) :
    (neighbourhood significand exponent).nearerBelow digits power = true ↔
      (significand : ℚ) * 2 ^ exponent < (digits + 1 / 2) * 10 ^ power := by
  obtain ⟨den0, value⟩ := decimalFraction_value (2 * digits + 1) power
  have near0 := neighbourhood_den exponent significand
  have den0' : (0 : ℚ) < (decimalFraction (2 * digits + 1) power).2 := by exact_mod_cast den0
  have near0' : (0 : ℚ) < (neighbourhood significand exponent).den := by exact_mod_cast near0
  have half : ((digits : ℚ) + 1 / 2) * 10 ^ power = ((2 * digits + 1 : Nat) * 10 ^ power) / 2 := by
    push_cast
    ring
  rw [half, ← value, ← neighbourhood_mid exponent, lt_div_iff₀ (by norm_num), div_mul_eq_mul_div,
    div_lt_div_iff₀ near0' den0', Neighbourhood.nearerBelow, decide_eq_true_iff, mul_comm _ (2 : ℚ)]
  norm_cast

end Values

/-! ## Values around the number -/

section Around
variable {significand : Nat} {exponent : Int}

/-- The values that round to a number are all those between two of them. -/
theorem RoundsTo.between {a b c : ℚ} (first : RoundsTo a significand exponent)
    (last : RoundsTo c significand exponent) (low : a ≤ b) (high : b ≤ c) :
    RoundsTo b significand exponent := by
  unfold RoundsTo at first last ⊢
  split at first
  · next even =>
    rw [if_pos even] at last ⊢
    exact ⟨first.1.trans low, high.trans last.2⟩
  · next odd =>
    rw [if_neg odd] at last ⊢
    exact ⟨first.1.trans_le low, high.trans_lt last.2⟩

theorem roundsTo_of_inside {value : ℚ} (low : lower significand exponent < value)
    (high : value < upper significand exponent) : RoundsTo value significand exponent := by
  unfold RoundsTo
  split
  · exact ⟨low.le, high.le⟩
  · exact ⟨low, high⟩

theorem lower_lt (significand : Nat) (exponent : Int) :
    lower significand exponent < significand * 2 ^ exponent := by
  have power := two_zpow_pos exponent
  unfold lower
  split
  · exact mul_lt_mul_of_pos_right (by linarith) power
  · exact mul_lt_mul_of_pos_right (by linarith) power

theorem lt_upper (significand : Nat) (exponent : Int) :
    significand * 2 ^ exponent < upper significand exponent := by
  unfold upper
  exact mul_lt_mul_of_pos_right (by linarith) (two_zpow_pos exponent)

theorem roundsTo_self (significand : Nat) (exponent : Int) :
    RoundsTo (significand * 2 ^ exponent) significand exponent :=
  roundsTo_of_inside (lower_lt significand exponent) (lt_upper significand exponent)

end Around

/-! ## Points of a grid -/

/-- A multiple of the power of ten reads back as the number. -/
def OnGrid (significand : Nat) (exponent power : Int) : Prop :=
  ∃ digits : Nat, RoundsTo (digits * 10 ^ power) significand exponent

/-- The digits read back, and no others on the grid that do are nearer to the number. -/
structure Closest (significand : Nat) (exponent : Int) (digits : Nat) (power : Int) : Prop where
  rounds : RoundsTo (digits * 10 ^ power) significand exponent
  nearest (other : Nat) : RoundsTo (other * 10 ^ power) significand exponent →
    |(digits * 10 ^ power - significand * 2 ^ exponent : ℚ)| ≤
      |(other * 10 ^ power - significand * 2 ^ exponent : ℚ)|

section Grid
variable {significand : Nat} {exponent power : Int}

/-- The points of a grid around the number. -/
theorem floorDigits_bounds (significand : Nat) (exponent power : Int) :
    ((neighbourhood significand exponent).floorDigits power : ℚ) * 10 ^ power ≤
        significand * 2 ^ exponent ∧
      (significand : ℚ) * 2 ^ exponent <
        ((neighbourhood significand exponent).floorDigits power + 1) * 10 ^ power := by
  have step := ten_zpow_pos power
  have unit := two_zpow_pos exponent
  rw [floorDigits_eq_floor, ← le_div_iff₀ step, ← div_lt_iff₀ step]
  exact ⟨Nat.floor_le (by positivity), Nat.lt_floor_add_one _⟩

/-- A grid has a point that reads back if it has one next to the number. -/
theorem onGrid_iff (significand : Nat) (exponent power : Int) :
    OnGrid significand exponent power ↔
      RoundsTo ((neighbourhood significand exponent).floorDigits power * 10 ^ power) significand
          exponent ∨
        RoundsTo (((neighbourhood significand exponent).floorDigits power + 1 : Nat) * 10 ^ power)
          significand exponent := by
  have step := ten_zpow_pos power
  obtain ⟨below, above⟩ := floorDigits_bounds significand exponent power
  have self := roundsTo_self significand exponent
  constructor
  · intro on
    obtain ⟨digits, rounds⟩ := on
    by_cases small : digits ≤ (neighbourhood significand exponent).floorDigits power
    · exact .inl (rounds.between self (by gcongr) below)
    · have next : (neighbourhood significand exponent).floorDigits power + 1 ≤ digits := by omega
      refine .inr (self.between rounds ?_ (by gcongr))
      push_cast
      exact above.le
  · intro found
    rcases found with found | found
    · exact ⟨_, found⟩
    · exact ⟨_, found⟩

/-- A grid of a step smaller than the values that round to the number reaches them. -/
theorem onGrid_of_lt
    (narrow : 10 ^ power < upper significand exponent - lower significand exponent) :
    OnGrid significand exponent power := by
  obtain ⟨below, above⟩ := floorDigits_bounds significand exponent power
  have low := below.trans_lt (lt_upper significand exponent)
  have high := (lower_lt significand exponent).trans above
  rw [onGrid_iff]
  by_contra none
  rw [not_or] at none
  obtain ⟨first, second⟩ := none
  have before : ((neighbourhood significand exponent).floorDigits power : ℚ) * 10 ^ power ≤
      lower significand exponent := by
    by_contra more
    exact first (roundsTo_of_inside (not_le.mp more) low)
  have behind : upper significand exponent ≤
      ((neighbourhood significand exponent).floorDigits power + 1) * 10 ^ power := by
    by_contra less
    refine second (roundsTo_of_inside ?_ ?_)
    · push_cast
      exact high
    · push_cast
      exact not_le.mp less
  linarith

/-- The point below the number is the closest one if no other reads back or that is farther. -/
theorem closest_floor
    (rounds : RoundsTo ((neighbourhood significand exponent).floorDigits power * 10 ^ power)
      significand exponent)
    (farther : RoundsTo (((neighbourhood significand exponent).floorDigits power + 1 : Nat) *
        10 ^ power) significand exponent →
      (significand : ℚ) * 2 ^ exponent ≤
        ((neighbourhood significand exponent).floorDigits power + 1 / 2) * 10 ^ power) :
    Closest significand exponent ((neighbourhood significand exponent).floorDigits power)
      power := by
  have step := ten_zpow_pos power
  obtain ⟨below, above⟩ := floorDigits_bounds significand exponent power
  generalize (neighbourhood significand exponent).floorDigits power = digits at *
  refine ⟨rounds, fun other reads => ?_⟩
  rw [abs_of_nonpos (by linarith)]
  by_cases small : other ≤ digits
  · have less : (other : ℚ) * 10 ^ power ≤ digits * 10 ^ power := by gcongr
    rw [abs_of_nonpos (by linarith)]
    linarith
  · have next : ((digits + 1 : Nat) : ℚ) * 10 ^ power ≤ other * 10 ^ power := by
      gcongr
      omega
    have half := farther ((roundsTo_self significand exponent).between reads
      (by push_cast; exact above.le) next)
    push_cast at next
    rw [abs_of_nonneg (by linarith)]
    linarith

/-- The point above the number is the closest one if no other reads back or that is farther. -/
theorem closest_ceil
    (rounds : RoundsTo (((neighbourhood significand exponent).floorDigits power + 1 : Nat) *
      10 ^ power) significand exponent)
    (farther : RoundsTo ((neighbourhood significand exponent).floorDigits power * 10 ^ power)
        significand exponent →
      ((neighbourhood significand exponent).floorDigits power + 1 / 2) * 10 ^ power ≤
        (significand : ℚ) * 2 ^ exponent) :
    Closest significand exponent ((neighbourhood significand exponent).floorDigits power + 1)
      power := by
  have step := ten_zpow_pos power
  obtain ⟨below, above⟩ := floorDigits_bounds significand exponent power
  generalize (neighbourhood significand exponent).floorDigits power = digits at *
  refine ⟨rounds, fun other reads => ?_⟩
  push_cast
  rw [abs_of_nonneg (by linarith)]
  by_cases small : other ≤ digits
  · have less : (other : ℚ) * 10 ^ power ≤ digits * 10 ^ power := by gcongr
    have half := farther (reads.between (roundsTo_self significand exponent) less below)
    rw [abs_of_nonpos (by linarith)]
    linarith
  · have next : ((digits + 1 : Nat) : ℚ) * 10 ^ power ≤ other * 10 ^ power := by
      gcongr
      omega
    push_cast at next
    rw [abs_of_nonneg (by linarith)]
    linarith

end Grid

/-! ## The search -/

/-- The first grid from the leading place on that has a point, and the closest one on it. -/
structure Shortest (significand : Nat) (exponent leading : Int) (digits : Nat) (power : Int) :
    Prop where
  closest : Closest significand exponent digits power
  within : power ≤ leading
  first (earlier : Int) : power < earlier → earlier ≤ leading →
    ¬ OnGrid significand exponent earlier

section Search
variable {significand : Nat} {exponent power : Int}

theorem search_of_onGrid (some : 0 < significand) (grids : Nat)
    (on : OnGrid significand exponent power) :
    ∃ digits, (neighbourhood significand exponent).search (grids + 1) power = (digits, power) ∧
      Closest significand exponent digits power := by
  rw [onGrid_iff] at on
  unfold Neighbourhood.search
  dsimp only
  split
  · next below above =>
    rw [holds_iff exponent some] at below above
    split
    · next nearer =>
      rw [nearerBelow_iff] at nearer
      exact ⟨_, rfl, closest_floor below fun _ => nearer.le⟩
    · next farther =>
      rw [nearerBelow_iff, not_lt] at farther
      exact ⟨_, rfl, closest_ceil above fun _ => farther⟩
  · next below above =>
    rw [holds_iff exponent some] at below
    rw [← Bool.not_eq_true, holds_iff exponent some] at above
    exact ⟨_, rfl, closest_floor below fun reads => absurd reads above⟩
  · next below above =>
    rw [holds_iff exponent some] at above
    rw [← Bool.not_eq_true, holds_iff exponent some] at below
    exact ⟨_, rfl, closest_ceil above fun reads => absurd reads below⟩
  · next below above =>
    rw [← Bool.not_eq_true, holds_iff exponent some] at below above
    rcases on with on | on
    · exact absurd on below
    · exact absurd on above

theorem search_of_not_onGrid (some : 0 < significand) (grids : Nat)
    (off : ¬ OnGrid significand exponent power) :
    (neighbourhood significand exponent).search (grids + 1) power =
      (neighbourhood significand exponent).search grids (power - 1) := by
  rw [onGrid_iff, not_or, ← holds_iff exponent some, ← holds_iff exponent some, Bool.not_eq_true,
    Bool.not_eq_true] at off
  obtain ⟨below, above⟩ := off
  rw [Neighbourhood.search, below, above]

/-- A search that comes to a grid with a point finds the first such grid. -/
theorem search_spec (some : 0 < significand) (grids : Nat) (leading : Int)
    (reached : OnGrid significand exponent (leading - grids)) :
    ∃ digits power,
      (neighbourhood significand exponent).search (grids + 1) leading = (digits, power) ∧
        Shortest significand exponent leading digits power := by
  -- Each grid has a point itself or leaves the search one grid less.
  induction grids generalizing leading with
  | zero =>
    rw [Nat.cast_zero, Int.sub_zero] at reached
    obtain ⟨digits, found, closest⟩ := search_of_onGrid some 0 reached
    exact ⟨digits, leading, found, closest, le_refl _, fun earlier above within => by omega⟩
  | succ grids ih =>
    by_cases on : OnGrid significand exponent leading
    · obtain ⟨digits, found, closest⟩ := search_of_onGrid some (grids + 1) on
      exact ⟨digits, leading, found, closest, le_refl _, fun earlier above within => by omega⟩
    · have next : leading - 1 - grids = leading - (grids + 1 : Nat) := by omega
      obtain ⟨digits, power, found, shortest⟩ := ih (leading - 1) (next ▸ reached)
      refine ⟨digits, power, ?_, shortest.closest, ?_, fun earlier above within => ?_⟩
      · rw [search_of_not_onGrid some _ on, found]
      · have finer := shortest.within
        omega
      · by_cases own : earlier = leading
        · rw [own]
          exact on
        · exact shortest.first earlier above (by omega)

end Search

/-! ## Seventeen digits -/

/-- The leading place is not above the number. -/
theorem leadingPower_le {num den : Nat} (num0 : 0 < num) (den0 : 0 < den) :
    (10 : ℚ) ^ leadingPower num den ≤ num / den := by
  have cast0 : (0 : ℚ) < num := by exact_mod_cast num0
  have cast0' : (0 : ℚ) < den := by exact_mod_cast den0
  unfold leadingPower
  split
  · next whole =>
    have quotient := Decimal.ten_pow_length_le (Nat.div_pos whole den0)
    have digits := Nat.length_toDigits_pos (b := 10) (n := num / den)
    have natural : ((Nat.toDigits 10 (num / den)).length : Int) - 1 =
        ((Nat.toDigits 10 (num / den)).length - 1 : Nat) := by omega
    rw [natural, zpow_natCast]
    calc (10 : ℚ) ^ ((Nat.toDigits 10 (num / den)).length - 1) ≤ (num / den : Nat) := by
          exact_mod_cast quotient
      _ ≤ num / den := Nat.cast_div_le
  · have quotient := Decimal.lt_ten_pow_length ((den - 1) / num)
    rw [Nat.div_lt_iff_lt_mul num0] at quotient
    have reaches : den ≤ 10 ^ (Nat.toDigits 10 ((den - 1) / num)).length * num := by omega
    rw [zpow_neg, zpow_natCast, inv_le_comm₀ (by positivity) (by positivity), inv_div,
      div_le_iff₀ cast0]
    exact_mod_cast reaches

/-- The values that round to a number are about as far apart as its last place. -/
theorem lt_upper_sub_lower {significand : Nat} {exponent leading : Int}
    (finite : Finite significand exponent)
    (below : (10 : ℚ) ^ leading ≤ significand * 2 ^ exponent) :
    (10 : ℚ) ^ (leading - 16) < upper significand exponent - lower significand exponent := by
  have unit := two_zpow_pos exponent
  have bits : (significand : ℚ) < 9007199254740992 := by exact_mod_cast finite.bits
  have step : (10 : ℚ) ^ (leading - 16) = 10 ^ leading / 10 ^ 16 := zpow_sub₀ (by norm_num) _ _
  rw [step, div_lt_iff₀ (by norm_num)]
  refine below.trans_lt ?_
  unfold upper lower
  split
  · next least =>
    rw [least.1]
    norm_num
    linarith
  · have product := mul_lt_mul_of_pos_right bits unit
    norm_num
    linarith

theorem onGrid_of_leading {significand : Nat} {exponent leading : Int}
    (finite : Finite significand exponent)
    (below : (10 : ℚ) ^ leading ≤ significand * 2 ^ exponent) :
    OnGrid significand exponent (leading - 16) :=
  onGrid_of_lt (lt_upper_sub_lower finite below)

/-- The digits of a number are the closest ones on the first grid with a point that reads back. -/
theorem shortest_spec {significand : Nat} {exponent : Int} (finite : Finite significand exponent)
    (some : 0 < significand) :
    ∃ leading digits power, (10 : ℚ) ^ leading ≤ significand * 2 ^ exponent ∧
      shortest significand exponent = (digits, power) ∧
        Shortest significand exponent leading digits power := by
  have mid0 : 0 < (neighbourhood significand exponent).mid := by
    have unit := two_zpow_pos exponent
    have value := neighbourhood_mid exponent significand
    by_contra none
    rw [Nat.eq_zero_of_not_pos none, Nat.cast_zero, zero_div] at value
    have positive : (0 : ℚ) < significand * 2 ^ exponent := by positivity
    linarith
  have below := leadingPower_le mid0 (neighbourhood_den exponent significand)
  rw [neighbourhood_mid exponent] at below
  obtain ⟨digits, power, found, spec⟩ := search_spec some 16 _ (onGrid_of_leading finite below)
  exact ⟨_, digits, power, below, found, spec⟩

end PrefixArith.Binary64
