import Mathlib.Data.List.TakeWhile
import PrefixArith.Formula.Settings
import PrefixArith.Proofs.Binary64.Shortest

/-!
# The text of a number is read as that number

Digits with a point in them are read as the number that their value rounds to. Written numbers are
such digits, in front of which a sign may stand (`ofText?_text`). So a number can be told from its
text, and from the message that refuses it as a probability.
-/
namespace PrefixArith.Binary64

open Decimal (Digits natOfDigits)

/-! ## Decimal numbers in the range of the format -/

section Range
variable {significand digits : Nat} {exponent power : Int}

/-- Values that round to a number are not much smaller than the least number. -/
theorem RoundsTo.gt_least {value : ℚ} (finite : Finite significand exponent)
    (some : 0 < significand) (rounds : RoundsTo value significand exponent) :
    (10 : ℚ) ^ (-330 : Int) < value := by
  have first : (1 : ℚ) ≤ significand := by exact_mod_cast some
  have least : (2 : ℚ) ^ (-1075 : Int) * 2 ≤ 2 ^ exponent := by
    rw [← zpow_add_one₀ (by norm_num)]
    exact zpow_le_zpow_right₀ (by norm_num) finite.least
  have sizes : 2 ^ 1075 < 10 ^ 330 := by decide +kernel
  have unit := two_zpow_pos exponent
  calc (10 : ℚ) ^ (-330 : Int) = (10 ^ 330)⁻¹ := by rw [zpow_neg, zpow_ofNat]
    _ < (2 ^ 1075)⁻¹ := inv_strictAnti₀ (by positivity) (by exact_mod_cast sizes)
    _ = 2 ^ (-1075 : Int) := by rw [zpow_neg, zpow_ofNat]
    _ ≤ (1 - 1 / 2) * 2 ^ exponent := by linarith
    _ ≤ (significand - 1 / 2) * 2 ^ exponent := by gcongr
    _ ≤ lower significand exponent := lower_ge significand exponent
    _ ≤ value := rounds.bounds.1

theorem RoundsTo.lt_greatest {value : ℚ} (finite : Finite significand exponent)
    (rounds : RoundsTo value significand exponent) : value < (10 : ℚ) ^ (310 : Int) := by
  have bits : (significand : ℚ) + 1 ≤ 2 ^ 53 := by exact_mod_cast finite.bits
  have greatest : (2 : ℚ) ^ exponent ≤ 2 ^ (971 : Int) :=
    zpow_le_zpow_right₀ (by norm_num) finite.greatest
  have sizes : 2 ^ 1024 < 10 ^ 310 := by decide +kernel
  have unit := two_zpow_pos exponent
  calc value ≤ upper significand exponent := rounds.bounds.2
    _ < (significand + 1) * 2 ^ exponent := mul_lt_mul_of_pos_right (by linarith) unit
    _ ≤ 2 ^ 53 * 2 ^ (971 : Int) := by gcongr
    _ = 2 ^ 1024 := by rw [zpow_ofNat, ← pow_add]
    _ < 10 ^ 310 := by exact_mod_cast sizes
    _ = 10 ^ (310 : Int) := by rw [zpow_ofNat]

/-- The number of digits and the power tell the size of the value. -/
theorem digits_value_bounds (positive : 0 < digits) (power : Int) :
    (10 : ℚ) ^ ((Nat.toDigits 10 digits).length + power - 1) ≤ digits * 10 ^ power ∧
      digits * 10 ^ power < (10 : ℚ) ^ ((Nat.toDigits 10 digits).length + power) := by
  have ten : (10 : ℚ) ≠ 0 := by norm_num
  have step := ten_zpow_pos power
  have count := Nat.length_toDigits_pos (b := 10) (n := digits)
  have places : ((Nat.toDigits 10 digits).length : Int) + power - 1 =
      ((Nat.toDigits 10 digits).length - 1 : Nat) + power := by omega
  rw [places, zpow_add₀ ten, zpow_add₀ ten, zpow_natCast, zpow_natCast]
  constructor
  · refine mul_le_mul_of_nonneg_right ?_ step.le
    exact_mod_cast Decimal.ten_pow_length_le positive
  · refine mul_lt_mul_of_pos_right ?_ step
    exact_mod_cast Decimal.lt_ten_pow_length digits

/-- Digits of a size that the format may hold are read by their exact value. -/
theorem ofDecimal_eq (positive : 0 < digits) (negative : Bool)
    (high : ((Nat.toDigits 10 digits).length : Int) + power ≤ 310)
    (low : -330 ≤ ((Nat.toDigits 10 digits).length : Int) + power) :
    ofDecimal negative digits power =
      ofFraction negative (decimalFraction digits power).1 (decimalFraction digits power).2 := by
  unfold ofDecimal decimalFraction
  dsimp only
  rw [if_neg positive.ne', if_neg (Int.not_lt.mpr high), if_neg (Int.not_lt.mpr low)]
  split
  · rfl
  · rfl

/-- Digits with a value that rounds to a number are read as that number. -/
theorem ofDecimal_of_roundsTo (finite : Finite significand exponent) (some : 0 < significand)
    (rounds : RoundsTo (digits * 10 ^ power) significand exponent) (negative : Bool) :
    ofDecimal negative digits power = .finite negative significand exponent := by
  have ten : (1 : ℚ) < 10 := by norm_num
  have least := rounds.gt_least finite some
  have positive : 0 < digits := by
    by_contra none
    rw [Nat.eq_zero_of_not_pos none, Nat.cast_zero, zero_mul] at least
    exact absurd least (ten_zpow_pos (-330)).not_gt
  obtain ⟨below, above⟩ := digits_value_bounds positive power
  have high := below.trans_lt (rounds.lt_greatest finite)
  have low := least.trans above
  rw [zpow_lt_zpow_iff_right₀ ten] at high low
  obtain ⟨den0, value⟩ := decimalFraction_value digits power
  have num0 : 0 < (decimalFraction digits power).1 := by
    unfold decimalFraction
    split
    · exact Nat.mul_pos positive (Nat.pow_pos (by decide))
    · exact positive
  rw [← value] at rounds
  rw [ofDecimal_eq positive negative (by omega) (by omega),
    ofFraction_of_roundsTo finite num0 den0 rounds]

end Range

/-! ## Reading digits with a point -/

section Point
variable {whole part : List Char}

theorem exists_digitChar {c : Char} (digit : c.isDigit = true) :
    ∃ d : Fin 10, d.val.digitChar = c := by
  obtain ⟨small, own⟩ := Decimal.digitChar_of_isDigit digit
  exact ⟨⟨c.toNat - 48, small⟩, own⟩

/-- No word begins with a digit. -/
theorem magnitudeOfChars?_of_digit {c : Char} (digit : c.isDigit = true) (rest : List Char)
    (negative : Bool) :
    magnitudeOfChars? negative (c :: rest) = unsignedOfChars? negative (c :: rest) := by
  have plain : c.toLower ≠ 'i' ∧ c.toLower ≠ 'n' := by
    obtain ⟨d, rfl⟩ := exists_digitChar digit
    revert d
    decide
  unfold magnitudeOfChars?
  rw [List.map_cons]
  split
  · next word =>
    have first := congrArg String.toList word
    simp [plain] at first
  · next word =>
    have first := congrArg String.toList word
    simp [plain] at first
  · next word =>
    have first := congrArg String.toList word
    simp [plain] at first
  · rfl

theorem unsignedOfChars?_of_digits (inside : Digits whole) (negative : Bool) :
    unsignedOfChars? negative whole = some (ofDecimal negative (natOfDigits whole) 0) := by
  have taken := (List.takeWhile_eq_self_iff (p := Char.isDigit)).mpr inside.2
  have left := (List.dropWhile_eq_nil_iff (p := Char.isDigit)).mpr inside.2
  rw [unsignedOfChars?, taken, left]
  dsimp only
  rw [List.append_nil, Decimal.natOfDigits?_of_digits inside, exponentOfChars?]
  rfl

theorem unsignedOfChars?_of_point (inside : Digits whole) (behind : ∀ c ∈ part, c.isDigit = true)
    (negative : Bool) :
    unsignedOfChars? negative (whole ++ '.' :: part) =
      some (ofDecimal negative (natOfDigits (whole ++ part)) (-part.length)) := by
  have taken : (whole ++ '.' :: part).takeWhile Char.isDigit = whole := by
    rw [List.takeWhile_append_of_pos inside.2, List.takeWhile_cons_of_neg (by decide),
      List.append_nil]
  have left : (whole ++ '.' :: part).dropWhile Char.isDigit = '.' :: part := by
    rw [List.dropWhile_append_of_pos inside.2, List.dropWhile_cons_of_neg (by decide)]
  have digits : Digits (whole ++ part) :=
    ⟨List.append_ne_nil_of_left_ne_nil inside.1 part,
      List.forall_mem_append.mpr ⟨inside.2, behind⟩⟩
  have all := (List.takeWhile_eq_self_iff (p := Char.isDigit)).mpr behind
  have rest := (List.dropWhile_eq_nil_iff (p := Char.isDigit)).mpr behind
  simp only [unsignedOfChars?, taken, left, all, rest, Decimal.natOfDigits?_of_digits digits,
    exponentOfChars?, Int.zero_sub]

end Point

/-! ## Written numbers -/

/-- The value of digits behind the point. -/
def partValue (part : List Char) : ℚ := natOfDigits part / 10 ^ part.length

theorem partValue_zeros (part : List Char) (zeros : Nat) :
    partValue (part ++ List.replicate zeros '0') = partValue part := by
  have none : natOfDigits (List.replicate zeros '0') = 0 := by
    rw [natOfDigits, Nat.ofDigitChars_replicate_zero, Nat.mul_zero]
  unfold partValue
  rw [Decimal.natOfDigits_append, none, List.length_append, List.length_replicate, pow_add]
  push_cast
  rw [add_zero, mul_div_mul_right _ _ (by positivity)]

/-- Digits around a point stand for the sum of what they stand for apart. -/
theorem natOfDigits_point (whole part : List Char) :
    (natOfDigits (whole ++ part) : ℚ) * 10 ^ (-part.length : Int) =
      natOfDigits whole + partValue part := by
  rw [Decimal.natOfDigits_append, partValue, zpow_neg, zpow_natCast, ← div_eq_mul_inv]
  push_cast
  rw [add_div, mul_div_cancel_right₀ _ (by positivity)]

section Written
variable {digits : Nat} {power : Int}

/-- What is dropped behind the last character that is not a zero are zeros. -/
theorem exists_zeros (chars : List Char) :
    ∃ zeros, (chars.reverse.dropWhile (· = '0')).reverse ++ List.replicate zeros '0' = chars := by
  have dropped : ∀ c ∈ chars.reverse.takeWhile (· = '0'), c = '0' := by
    intro c mem
    have zero := List.mem_takeWhile_imp mem
    exact of_decide_eq_true zero
  have parts := List.takeWhile_append_dropWhile (p := (· = '0')) (l := chars.reverse)
  rw [List.eq_replicate_of_mem dropped] at parts
  have cut := congrArg List.reverse parts
  rw [List.reverse_append, List.reverse_reverse, List.reverse_replicate] at cut
  exact ⟨_, cut⟩

theorem isDigit_of_mem_padded {c : Char} (mem : c ∈ padded digits power) : c.isDigit = true :=
  (Decimal.digits_zeros _ (Decimal.digits_toDigits _)).2 c mem

theorem partValue_padded (digits : Nat) (power : Int) :
    partValue (padded digits power) =
      ((decimalFraction digits power).1 % (decimalFraction digits power).2 : Nat) /
        (decimalFraction digits power).2 := by
  have value : natOfDigits (padded digits power) =
      (decimalFraction digits power).1 % (decimalFraction digits power).2 := by
    unfold padded
    dsimp only
    rw [Decimal.natOfDigits_zeros, Decimal.natOfDigits_toDigits]
  rw [partValue, value]
  obtain ⟨k, rfl⟩ | ⟨k, some, rfl⟩ := exponent_cases power
  · -- Without places behind the point there is only a zero.
    have whole : (decimalFraction digits (k : Int)).2 = 1 := by
      rw [decimalFraction, if_pos (Int.natCast_nonneg k)]
    rw [whole, Nat.mod_one, Nat.cast_zero, zero_div, zero_div]
  · have negative : ¬ (0 : Int) ≤ -k := by omega
    have parts : decimalFraction digits (-k) = (digits, 10 ^ k) := by
      rw [decimalFraction, if_neg negative, Int.neg_neg, Int.toNat_natCast]
      rfl
    have fits : (Nat.toDigits 10 (digits % 10 ^ k)).length ≤ k :=
      (Nat.length_toDigits_le_iff (by decide) some).mpr (Nat.mod_lt _ (Nat.pow_pos (by decide)))
    have places : (padded digits (-k)).length = k := by
      unfold padded
      rw [parts, Int.neg_neg, Int.toNat_natCast, List.length_append, List.length_replicate]
      exact Nat.sub_add_cancel fits
    rw [places, parts]
    push_cast
    rfl

/-- A number is written as digits, with a point and more digits if it has a fraction. -/
theorem positional_eq (digits : Nat) (power : Int) :
    ∃ whole part, Digits whole ∧ (∀ c ∈ part, c.isDigit = true) ∧
      natOfDigits whole + partValue part = digits * 10 ^ power ∧
        (positional digits power).toList = if part = [] then whole else whole ++ '.' :: part := by
  obtain ⟨den0, value⟩ := decimalFraction_value digits power
  have den0' : (0 : ℚ) < (decimalFraction digits power).2 := by exact_mod_cast den0
  obtain ⟨zeros, cut⟩ := exists_zeros (padded digits power)
  refine ⟨Nat.toDigits 10 ((decimalFraction digits power).1 / (decimalFraction digits power).2),
    ((padded digits power).reverse.dropWhile (· = '0')).reverse, Decimal.digits_toDigits _, ?_, ?_,
    ?_⟩
  · intro c mem
    have kept : c ∈ padded digits power := by
      rw [← cut]
      exact List.mem_append_left _ mem
    exact isDigit_of_mem_padded kept
  · rw [← partValue_zeros _ zeros, cut, partValue_padded, Decimal.natOfDigits_toDigits, ← value,
      eq_div_iff den0'.ne', add_mul, div_mul_cancel₀ _ den0'.ne']
    exact_mod_cast Nat.div_add_mod' _ _
  · simp only [positional, List.isEmpty_iff, Decimal.ofNat]
    split
    · exact String.toList_ofList
    · simp

end Written

/-! ## Reading what is written -/

section Reading
variable {significand digits : Nat} {exponent power : Int}

/-- A text that begins with a digit is read without a sign, and with a minus sign before it as the
negative number. -/
theorem ofText?_of_digit {text : String} {c : Char} {rest : List Char}
    (chars : text.toList = c :: rest) (digit : c.isDigit = true) :
    ofText? text = unsignedOfChars? false text.toList ∧
      ofText? ("-" ++ text) = unsignedOfChars? true text.toList := by
  constructor
  · unfold ofText?
    rw [chars, ← magnitudeOfChars?_of_digit digit]
    split
    · next sign =>
      cases sign
      exact absurd digit (by decide)
    · next sign =>
      cases sign
      exact absurd digit (by decide)
    · rfl
  · rw [chars, ← magnitudeOfChars?_of_digit digit, ofText?, String.toList_append, chars]
    rfl

/-- Written digits with a value that rounds to a number are read as that number, with either
sign. -/
theorem ofText?_positional (finite : Finite significand exponent) (positive : 0 < significand)
    (rounds : RoundsTo (digits * 10 ^ power) significand exponent) :
    ofText? (positional digits power) = some (.finite false significand exponent) ∧
      ofText? ("-" ++ positional digits power) = some (.finite true significand exponent) := by
  obtain ⟨whole, part, inside, behind, value, chars⟩ := positional_eq digits power
  rw [← value] at rounds
  have read (negative : Bool) : unsignedOfChars? negative (positional digits power).toList =
      some (.finite negative significand exponent) := by
    rw [chars]
    rw [← natOfDigits_point] at rounds
    split
    · next none =>
      rw [none, List.append_nil, List.length_nil, Nat.cast_zero, Int.neg_zero] at rounds
      rw [unsignedOfChars?_of_digits inside, ofDecimal_of_roundsTo finite positive rounds]
    · rw [unsignedOfChars?_of_point inside behind, ofDecimal_of_roundsTo finite positive rounds]
  obtain ⟨c, rest, first⟩ := List.exists_cons_of_ne_nil inside.1
  have digit : c.isDigit = true := inside.2 c (first ▸ List.mem_cons_self)
  have begins : ∃ others, (positional digits power).toList = c :: others := by
    rw [chars, first]
    split
    · exact ⟨_, rfl⟩
    · exact ⟨_, rfl⟩
  obtain ⟨others, begins⟩ := begins
  obtain ⟨plain, minus⟩ := ofText?_of_digit begins digit
  rw [plain, minus]
  exact ⟨read false, read true⟩

end Reading

/-- The text of a number is read as that number. -/
theorem ofText?_text {number : Binary64} (formed : number.Formed) :
    ofText? number.text = some number := by
  cases number with
  | nan => decide +kernel
  | infinite negative => cases negative <;> decide +kernel
  | finite negative significand exponent =>
    by_cases zero : significand = 0
    · -- The only zero of either sign has the least exponent.
      have least : exponent = -1074 := by
        rcases formed.full with full | least
        · omega
        · exact least
      subst zero least
      cases negative <;> decide +kernel
    · have positive := Nat.pos_of_ne_zero zero
      obtain ⟨leading, digits, power, -, found, spec⟩ := shortest_spec formed positive
      obtain ⟨plain, minus⟩ := ofText?_positional formed positive spec.closest.rounds
      rw [text, if_neg zero, found]
      cases negative with
      | false => exact plain
      | true => exact minus

example : (Binary64.finite true 7205759403792794 (-56)).text = "-0.1" := by decide +kernel

/-! ## What is read -/

theorem formed_ofDecimal (negative : Bool) (digits : Nat) (power : Int) :
    (ofDecimal negative digits power).Formed := by
  have ten (n : Nat) : 0 < Decimal.tenTo n := Nat.pow_pos (by decide)
  unfold ofDecimal
  dsimp only
  split
  · exact formed_ofFraction (by decide) negative
  · split
    · exact trivial
    · split
      · exact formed_ofFraction (by decide) negative
      · split
        · exact formed_ofFraction (by decide) negative
        · exact formed_ofFraction (ten _) negative

theorem formed_of_magnitudeOfChars? {negative : Bool} {chars : List Char} {number : Binary64}
    (read : magnitudeOfChars? negative chars = some number) : number.Formed := by
  unfold magnitudeOfChars? at read
  split at read
  · cases read
    exact trivial
  · cases read
    exact trivial
  · cases read
    exact trivial
  · unfold unsignedOfChars? at read
    dsimp only at read
    split at read
    · cases read
      exact formed_ofDecimal _ _ _
    · cases read

/-- What is read is a number of the format. -/
theorem formed_of_ofText? {written : String} {number : Binary64}
    (read : ofText? written = some number) : number.Formed := by
  unfold ofText? at read
  split at read
  · exact formed_of_magnitudeOfChars? read
  · exact formed_of_magnitudeOfChars? read
  · exact formed_of_magnitudeOfChars? read

/-- A number that was read from any text is read again from its own. -/
theorem ofText?_text_of_read {written : String} {number : Binary64}
    (read : ofText? written = some number) : ofText? number.text = some number :=
  ofText?_text (formed_of_ofText? read)

/-- Different numbers have different texts. -/
theorem text_injective {first second : Binary64} (formed : first.Formed) (formed' : second.Formed)
    (same : first.text = second.text) : first = second := by
  have read := ofText?_text formed
  rw [same, ofText?_text formed', Option.some_inj] at read
  exact read.symm

end PrefixArith.Binary64
