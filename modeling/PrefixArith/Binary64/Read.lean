import PrefixArith.Binary64
import PrefixArith.Decimal

/-!
# Reading double precision numbers

A number is written as digits with an optional point and an optional decimal exponent, or as one of
the words `inf`, `infinity` and `nan` in any case; a sign may stand in front. The value is the
number of the format nearest to the exact decimal value, of two equally near ones the one with an
even significand.
-/
namespace PrefixArith.Binary64

/-- Whether `num / den < 2 ^ power`. -/
def belowPower (num den : Nat) (power : Int) : Bool :=
  if 0 ≤ power then num < den <<< power.toNat else num <<< (-power).toNat < den

/-- The greatest power of two that is at most `num / den`, for a positive quotient. -/
def floorLog (num den : Nat) : Int :=
  let guess : Int := num.log2 - den.log2
  if belowPower num den guess then guess - 1 else guess

/-- The integer nearest to `num / den`, of two the even one. -/
def nearestEven (num den : Nat) : Nat :=
  let quotient := num / den
  let rest := num % den
  if den < 2 * rest ∨ (den = 2 * rest ∧ quotient % 2 = 1) then quotient + 1 else quotient

/-- The number nearest to `num / den`: 53 significant bits, no exponent below -1074 or above 971. -/
def ofFraction (negative : Bool) (num den : Nat) : Binary64 :=
  if num = 0 then .finite negative 0 (-1074) else
  let exponent := max (floorLog num den - 52) (-1074)
  let significand :=
    if 0 ≤ exponent then nearestEven num (den <<< exponent.toNat)
    else nearestEven (num <<< (-exponent).toNat) den
  let (significand, exponent) :=
    if significand = 1 <<< 53 then (1 <<< 52, exponent + 1) else (significand, exponent)
  if 971 < exponent then .infinite negative else .finite negative significand exponent

/-- The number nearest to `digits · 10 ^ power`. Powers far outside the range of the format are
settled by the number of digits alone. -/
def ofDecimal (negative : Bool) (digits : Nat) (power : Int) : Binary64 :=
  if digits = 0 then ofFraction negative 0 1 else
  let magnitude := (Nat.toDigits 10 digits).length + power
  if 310 < magnitude then .infinite negative
  else if magnitude < -330 then ofFraction negative 0 1
  else if 0 ≤ power then ofFraction negative (digits * Decimal.tenTo power.toNat) 1
  else ofFraction negative digits (Decimal.tenTo (-power).toNat)

/-- The exponent part after the digits, 0 if there is none. -/
def exponentOfChars? : List Char → Option Int
  | [] => some 0
  | c :: rest => if c = 'e' ∨ c = 'E' then Decimal.intOfChars? rest else none

/-- Reads a number without a sign. -/
def unsignedOfChars? (negative : Bool) (chars : List Char) : Option Binary64 :=
  let whole := chars.takeWhile Char.isDigit
  let (part, rest) := match chars.dropWhile Char.isDigit with
    | '.' :: rest => (rest.takeWhile Char.isDigit, rest.dropWhile Char.isDigit)
    | rest => ([], rest)
  match Decimal.natOfDigits? (whole ++ part), exponentOfChars? rest with
  | some digits, some power => some (ofDecimal negative digits (power - part.length))
  | _, _ => none

def magnitudeOfChars? (negative : Bool) (chars : List Char) : Option Binary64 :=
  match String.ofList (chars.map Char.toLower) with
  | "inf" => some (.infinite negative)
  | "infinity" => some (.infinite negative)
  | "nan" => some .nan
  | _ => unsignedOfChars? negative chars

def ofText? (text : String) : Option Binary64 :=
  match text.toList with
  | '-' :: rest => magnitudeOfChars? true rest
  | '+' :: rest => magnitudeOfChars? false rest
  | chars => magnitudeOfChars? false chars

end PrefixArith.Binary64
