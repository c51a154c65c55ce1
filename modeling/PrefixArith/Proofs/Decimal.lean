import Mathlib.Data.List.Basic
import Mathlib.Data.List.Induction
import Mathlib.Tactic.NormNum
import PrefixArith.Decimal

/-!
# Reading decimal text

What reading makes of digits with and without a sign, that it takes the numerals and nothing else
(`intOfChars?_eq_some_iff`), and that the decimal text of an integer is read as that integer, with
any number of zeros before its digits (`intOfChars?_withZeros`). A numeral that is refused stands
for no word (`beyond_of_refused`).
-/
namespace PrefixArith.Decimal

/-! ## Words -/

theorem fits_iff {z : Int} : Fits z ↔ -9223372036854775808 ≤ z ∧ z ≤ 9223372036854775807 := by
  rw [Fits, Int64.toInt_minValue, Int64.toInt_maxValue]
  norm_num

theorem fits_toInt (v : Int64) : Fits v.toInt := ⟨Int64.minValue_le_toInt v, Int64.toInt_le v⟩

theorem toInt_ofInt {z : Int} (fits : Fits z) : (Int64.ofInt z).toInt = z := by
  obtain ⟨low, high⟩ := fits
  rw [Int64.toInt_minValue] at low
  rw [Int64.toInt_maxValue] at high
  exact Int64.toInt_ofInt_of_le low (Int.lt_of_le_sub_one high)

/-! ## Digits -/

/-- One digit or more, and nothing else. -/
def Digits (chars : List Char) : Prop := chars ≠ [] ∧ ∀ c ∈ chars, c.isDigit = true

/-- The number that digits stand for. -/
def natOfDigits (digits : List Char) : Nat := Nat.ofDigitChars 10 digits 0

theorem digits_toDigits (n : Nat) : Digits (Nat.toDigits 10 n) :=
  ⟨Nat.toDigits_ne_nil, fun _ mem => Nat.isDigit_of_mem_toDigits (by decide) (by decide) mem⟩

theorem natOfDigits_toDigits (n : Nat) : natOfDigits (Nat.toDigits 10 n) = n :=
  Nat.ofDigitChars_toDigits (by decide) (by decide)

theorem lt_ten_pow_length (n : Nat) : n < 10 ^ (Nat.toDigits 10 n).length :=
  (Nat.length_toDigits_le_iff (by decide) Nat.length_toDigits_pos).mp (Nat.le_refl _)

/-- A number has no more digits than it needs. -/
theorem ten_pow_length_le {n : Nat} (positive : 0 < n) :
    10 ^ ((Nat.toDigits 10 n).length - 1) ≤ n := by
  by_contra less
  by_cases single : (Nat.toDigits 10 n).length = 1
  · rw [single] at less
    omega
  · have digits := Nat.length_toDigits_pos (b := 10) (n := n)
    have fewer := (Nat.length_toDigits_le_iff (by decide) (by omega)).mpr (Nat.lt_of_not_le less)
    omega

section Reading
variable {digits : List Char}

theorem natOfDigits?_of_digits (inside : Digits digits) :
    natOfDigits? digits = some (natOfDigits digits) := by
  obtain ⟨nonempty, all⟩ := inside
  rw [natOfDigits?, if_pos ⟨nonempty, List.all_eq_true.mpr all⟩, natOfDigits]

/-- Digits alone carry no sign. -/
theorem intOfChars?_of_digits (inside : Digits digits) :
    intOfChars? digits = some (natOfDigits digits : Int) := by
  have value := natOfDigits?_of_digits inside
  unfold intOfChars?
  split
  · have digit := inside.2 '-' List.mem_cons_self
    simp at digit
  · have digit := inside.2 '+' List.mem_cons_self
    simp at digit
  · rw [value]
    rfl

theorem intOfChars?_of_minus (inside : Digits digits) :
    intOfChars? ('-' :: digits) = some (-(natOfDigits digits : Int)) := by
  rw [intOfChars?, natOfDigits?_of_digits inside]
  rfl

theorem intOfChars?_of_plus (inside : Digits digits) :
    intOfChars? ('+' :: digits) = some (natOfDigits digits : Int) := by
  rw [intOfChars?, natOfDigits?_of_digits inside]
  rfl

theorem natOfDigits?_eq_some {n : Nat} (read : natOfDigits? digits = some n) :
    Digits digits ∧ natOfDigits digits = n := by
  unfold natOfDigits? at read
  split at read
  · next inside =>
    rw [Option.some_inj] at read
    exact ⟨⟨inside.1, List.all_eq_true.mp inside.2⟩, read⟩
  · cases read

end Reading

/-! ## Numerals -/

/-- The text is a numeral of `z`: digits, after a sign if there is one. -/
def Numeral (z : Int) (text : String) : Prop :=
  ∃ digits, Digits digits ∧
    (((text.toList = digits ∨ text.toList = '+' :: digits) ∧ z = natOfDigits digits) ∨
      (text.toList = '-' :: digits ∧ z = -natOfDigits digits))

/-- Exactly the numerals are read. -/
theorem intOfChars?_eq_some_iff {z : Int} {text : String} :
    intOfChars? text.toList = some z ↔ Numeral z text := by
  constructor
  · intro read
    unfold intOfChars? at read
    -- the first character tells which of the three forms it is
    split at read
    · next digits chars =>
      obtain ⟨n, magnitude, rfl⟩ : ∃ n, natOfDigits? digits = some n ∧ -(n : Int) = z := by
        simpa [Option.bind_eq_some_iff] using read
      obtain ⟨inside, value⟩ := natOfDigits?_eq_some magnitude
      exact ⟨digits, inside, .inr ⟨chars, by rw [value]⟩⟩
    · next digits chars =>
      obtain ⟨n, magnitude, rfl⟩ : ∃ n, natOfDigits? digits = some n ∧ (n : Int) = z := by
        simpa [Option.bind_eq_some_iff] using read
      obtain ⟨inside, value⟩ := natOfDigits?_eq_some magnitude
      exact ⟨digits, inside, .inl ⟨.inr chars, by rw [value]⟩⟩
    · obtain ⟨n, magnitude, rfl⟩ : ∃ n, natOfDigits? text.toList = some n ∧ (n : Int) = z := by
        simpa [Option.bind_eq_some_iff] using read
      obtain ⟨inside, value⟩ := natOfDigits?_eq_some magnitude
      exact ⟨text.toList, inside, .inl ⟨.inl rfl, by rw [value]⟩⟩
  · rintro ⟨digits, inside, ⟨chars | chars, rfl⟩ | ⟨chars, rfl⟩⟩
    · rw [chars, intOfChars?_of_digits inside]
    · rw [chars, intOfChars?_of_plus inside]
    · rw [chars, intOfChars?_of_minus inside]

/-! ## Written integers -/

theorem toList_ofInt (z : Int) :
    (ofInt z).toList =
      if z < 0 then '-' :: Nat.toDigits 10 z.natAbs else Nat.toDigits 10 z.natAbs := by
  unfold ofInt ofNat
  split <;> simp

theorem intOfChars?_ofInt (z : Int) : intOfChars? (ofInt z).toList = some z := by
  have inside := digits_toDigits z.natAbs
  rw [toList_ofInt]
  split
  · rw [intOfChars?_of_minus inside, natOfDigits_toDigits, Option.some_inj]
    omega
  · rw [intOfChars?_of_digits inside, natOfDigits_toDigits, Option.some_inj]
    omega

theorem int64OfText?_ofInt64 (v : Int64) : int64OfText? (ofInt64 v) = some v := by
  rw [int64OfText?, ofInt64, intOfChars?_ofInt]
  simp only [if_pos (fits_toInt v), Int64.ofInt_toInt]

/-- Different words have different texts. -/
theorem ofInt64_injective : Function.Injective ofInt64 := by
  intro v w same
  have read := int64OfText?_ofInt64 v
  rw [same, int64OfText?_ofInt64, Option.some_inj] at read
  exact read.symm

/-- A written word is made of digits, with a minus sign before them if it is negative. -/
theorem ofInt64_eq_ofList (v : Int64) :
    ∃ digits, Digits digits ∧
      (ofInt64 v = String.ofList digits ∨ ofInt64 v = String.ofList ('-' :: digits)) := by
  refine ⟨Nat.toDigits 10 v.toInt.natAbs, digits_toDigits _, ?_⟩
  have chars := toList_ofInt v.toInt
  split at chars
  · exact .inr (String.toList_injective (by rw [ofInt64, chars, String.toList_ofList]))
  · exact .inl (String.toList_injective (by rw [ofInt64, chars, String.toList_ofList]))

/-! ## Leading zeros -/

/-- The text with zeros before its digits, behind its minus sign if it has one. -/
def withZeros (zeros : Nat) (text : String) : String :=
  match text.toList with
  | '-' :: digits => String.ofList ('-' :: (List.replicate zeros '0' ++ digits))
  | digits => String.ofList (List.replicate zeros '0' ++ digits)

section Zeros
variable {digits : List Char}

theorem digits_zeros (zeros : Nat) (inside : Digits digits) :
    Digits (List.replicate zeros '0' ++ digits) := by
  refine ⟨List.append_ne_nil_of_right_ne_nil _ inside.1, ?_⟩
  rw [List.forall_mem_append]
  refine ⟨?_, inside.2⟩
  intro c mem
  rw [List.eq_of_mem_replicate mem]
  rfl

/-- Leading zeros do not matter. -/
theorem natOfDigits_zeros (zeros : Nat) (digits : List Char) :
    natOfDigits (List.replicate zeros '0' ++ digits) = natOfDigits digits := by
  induction zeros with
  | zero => rfl
  | succ zeros ih =>
    rw [List.replicate_succ, List.cons_append, ← ih]
    rfl

theorem withZeros_of_digits (zeros : Nat) (inside : Digits digits) :
    withZeros zeros (String.ofList digits) =
      String.ofList (List.replicate zeros '0' ++ digits) := by
  rw [withZeros, String.toList_ofList]
  split
  · have digit := inside.2 '-' List.mem_cons_self
    simp at digit
  · rfl

theorem withZeros_of_minus (zeros : Nat) (digits : List Char) :
    withZeros zeros (String.ofList ('-' :: digits)) =
      String.ofList ('-' :: (List.replicate zeros '0' ++ digits)) := by
  rw [withZeros, String.toList_ofList]
  rfl

end Zeros

/-! ## Canonical text -/

/-- Digits that begin with a zero only if that is all of them. -/
def Plain (digits : List Char) : Prop := Digits digits ∧ (digits.head? = some '0' → digits = ['0'])

/-- The canonical text of an integer: digits without leading zeros that stand for its magnitude,
with a minus sign before them exactly if it is negative. -/
def Canonical (z : Int) (text : String) : Prop :=
  ∃ digits, Plain digits ∧
    ((0 ≤ z ∧ text = String.ofList digits ∧ (natOfDigits digits : Int) = z) ∨
      (z < 0 ∧ text = String.ofList ('-' :: digits) ∧ (natOfDigits digits : Int) = -z))

theorem digitChar_ne_zero {n : Nat} (positive : 0 < n) (small : n < 10) : n.digitChar ≠ '0' := by
  have digits : ∀ d : Fin 10, 0 < d.val → d.val.digitChar ≠ '0' := by decide
  exact digits ⟨n, small⟩ positive

theorem head?_toDigits_ne_zero {n : Nat} (positive : 0 < n) :
    (Nat.toDigits 10 n).head? ≠ some '0' := by
  induction n using Nat.strongRecOn with
  | ind n ih =>
    by_cases small : n < 10
    · rw [Nat.toDigits_of_lt_base small, List.head?_cons, ne_eq, Option.some_inj]
      exact digitChar_ne_zero positive small
    · rw [Nat.toDigits_of_base_le (by decide) (Nat.le_of_not_lt small),
        List.head?_append_of_ne_nil _ Nat.toDigits_ne_nil]
      exact ih (n / 10) (by omega) (by omega)

theorem plain_toDigits (n : Nat) : Plain (Nat.toDigits 10 n) := by
  refine ⟨digits_toDigits n, fun zero => ?_⟩
  rcases Nat.eq_zero_or_pos n with rfl | positive
  · exact Nat.toDigits_zero 10
  · exact absurd zero (head?_toDigits_ne_zero positive)

/-- Integers are written canonically. -/
theorem canonical_ofInt (z : Int) : Canonical z (ofInt z) := by
  have chars := toList_ofInt z
  refine ⟨Nat.toDigits 10 z.natAbs, plain_toDigits _, ?_⟩
  rw [natOfDigits_toDigits]
  split at chars
  · next negative =>
    refine .inr ⟨negative, ?_, by omega⟩
    rw [← chars, String.ofList_toList]
  · next nonnegative =>
    refine .inl ⟨by omega, ?_, by omega⟩
    rw [← chars, String.ofList_toList]

/-! ## What canonical text determines -/

theorem digitChar_of_isDigit {c : Char} (digit : c.isDigit = true) :
    c.toNat - 48 < 10 ∧ (c.toNat - 48).digitChar = c := by
  have range : 48 ≤ c.toNat ∧ c.toNat ≤ 57 := by
    simpa [Char.isDigit, UInt32.le_iff_toNat_le] using digit
  have small : c.toNat - 48 < 10 := by omega
  refine ⟨small, Char.toNat_inj.mp ?_⟩
  rw [Nat.toNat_digitChar_of_lt_ten small]
  omega

theorem natOfDigits_append (first second : List Char) :
    natOfDigits (first ++ second) =
      natOfDigits first * 10 ^ second.length + natOfDigits second := by
  unfold natOfDigits
  rw [Nat.ofDigitChars_append, Nat.ofDigitChars_eq_ofDigitChars_zero, Nat.mul_comm]

theorem natOfDigits_concat (digits : List Char) (c : Char) :
    natOfDigits (digits ++ [c]) = 10 * natOfDigits digits + (c.toNat - 48) :=
  Nat.ofDigitChars_append 0

/-- Digits without leading zeros are the written form of the number they stand for. -/
theorem Plain.toDigits_eq {digits : List Char} (plain : Plain digits) :
    Nat.toDigits 10 (natOfDigits digits) = digits := by
  induction digits using List.reverseRecOn with
  | nil => exact absurd rfl plain.1.1
  | append_singleton earlier c ih =>
    obtain ⟨⟨-, inside⟩, zero⟩ := plain
    rw [List.forall_mem_append, List.forall_mem_singleton] at inside
    obtain ⟨small, own⟩ := digitChar_of_isDigit inside.2
    have last : Nat.toDigits 10 (c.toNat - 48) = [c] := by rw [Nat.toDigits_of_lt_base small, own]
    rw [natOfDigits_concat]
    by_cases single : earlier = []
    · have none : natOfDigits [] = 0 := rfl
      rw [single, none, Nat.mul_zero, Nat.zero_add, last, List.nil_append]
    · have nonzero : earlier.head? ≠ some '0' := by
        intro head
        rw [List.head?_append_of_ne_nil _ single] at zero
        have alone := congrArg List.length (zero head)
        have counts := List.length_pos_of_ne_nil single
        simp only [List.length_append, List.length_singleton] at alone
        omega
      have written := ih ⟨⟨single, inside.1⟩, fun head => absurd head nonzero⟩
      have positive : 0 < natOfDigits earlier := by
        refine Nat.pos_of_ne_zero fun none => nonzero ?_
        rw [← written, none]
        rfl
      rw [← Nat.toDigits_append_toDigits (by decide) positive small, written, last]

theorem Canonical.eq_ofInt {z : Int} {text : String} (canonical : Canonical z text) :
    text = ofInt z := by
  obtain ⟨digits, plain, ⟨sign, rfl, value⟩ | ⟨sign, rfl, value⟩⟩ := canonical
  · rw [ofInt, if_neg (Int.not_lt.mpr sign), ofNat, ← value, Int.natAbs_natCast, plain.toDigits_eq]
  · have magnitude : z.natAbs = natOfDigits digits := by omega
    apply String.toList_injective
    rw [toList_ofInt, if_pos sign, magnitude, plain.toDigits_eq, String.toList_ofList]

/-! ## Integers with leading zeros -/

/-- An integer that is written with zeros before its digits stays a number of that magnitude and
sign. -/
theorem withZeros_ofInt (zeros : Nat) (z : Int) :
    ∃ digits, Digits digits ∧
      ((withZeros zeros (ofInt z) = String.ofList digits ∧ z = natOfDigits digits) ∨
        (withZeros zeros (ofInt z) = String.ofList ('-' :: digits) ∧ z = -natOfDigits digits)) := by
  obtain ⟨digits, ⟨inside, -⟩, ⟨-, written, value⟩ | ⟨-, written, value⟩⟩ := canonical_ofInt z
  · refine ⟨List.replicate zeros '0' ++ digits, digits_zeros zeros inside, .inl ⟨?_, ?_⟩⟩
    · rw [written, withZeros_of_digits zeros inside]
    · rw [natOfDigits_zeros, value]
  · refine ⟨List.replicate zeros '0' ++ digits, digits_zeros zeros inside, .inr ⟨?_, ?_⟩⟩
    · rw [written, withZeros_of_minus]
    · rw [natOfDigits_zeros, value, Int.neg_neg]

/-- Such a text is a numeral of the integer. -/
theorem intOfChars?_withZeros (zeros : Nat) (z : Int) :
    intOfChars? (withZeros zeros (ofInt z)).toList = some z := by
  obtain ⟨digits, inside, ⟨written, value⟩ | ⟨written, value⟩⟩ := withZeros_ofInt zeros z
  · rw [written, String.toList_ofList, intOfChars?_of_digits inside, value]
  · rw [written, String.toList_ofList, intOfChars?_of_minus inside, value]

/-- A numeral is a word if its integer fits, and nothing else. -/
theorem int64OfText?_of_numeral {text : String} {z : Int}
    (read : intOfChars? text.toList = some z) :
    int64OfText? text = if Fits z then some (Int64.ofInt z) else none := by
  rw [int64OfText?, read]

/-! ## Refused numerals -/

/-- The text of an integer beyond the words: digits for one above the greatest word, or a minus sign
and digits for one below the least. -/
def Beyond (text : String) : Prop :=
  ∃ digits, Digits digits ∧
    ((text = String.ofList digits ∧ 9223372036854775807 < natOfDigits digits) ∨
      (text = String.ofList ('-' :: digits) ∧ 9223372036854775808 < natOfDigits digits))

theorem not_fits_of_refused {text : String} {z : Int} (read : intOfChars? text.toList = some z)
    (refused : int64OfText? text = none) : ¬ Fits z := by
  intro fits
  simp [int64OfText?, read, fits] at refused

theorem beyond_of_refused {text : String} {digits : List Char} (inside : Digits digits)
    (written : text = String.ofList digits ∨ text = String.ofList ('-' :: digits))
    (refused : int64OfText? text = none) : Beyond text := by
  refine ⟨digits, inside, ?_⟩
  rcases written with rfl | rfl
  · left
    have exceeds := not_fits_of_refused (by rw [String.toList_ofList, intOfChars?_of_digits inside])
      refused
    rw [fits_iff] at exceeds
    exact ⟨rfl, by omega⟩
  · right
    have exceeds := not_fits_of_refused (by rw [String.toList_ofList, intOfChars?_of_minus inside])
      refused
    rw [fits_iff] at exceeds
    exact ⟨rfl, by omega⟩

end PrefixArith.Decimal
