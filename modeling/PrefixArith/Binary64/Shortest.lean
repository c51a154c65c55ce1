import PrefixArith.Binary64
import PrefixArith.Decimal

/-!
# Shortest decimal text of double precision numbers

A number is written with the fewest digits that read back as the same number and, among those, the
ones nearest to it. There is no exponent: zeros fill the places up to the point, and a number
without a fraction has no point.
-/
namespace PrefixArith.Binary64

/-- The values that round to a number: from `low / den` to `high / den` around `mid / den`, ends
included if `closed`. -/
structure Neighbourhood where
  low : Nat
  mid : Nat
  high : Nat
  den : Nat
  closed : Bool
  deriving DecidableEq, Repr

/-- Half way to the neighbours on both sides. Below a power of two the neighbour is half as far,
unless the exponent is already the least. -/
def neighbourhood (significand : Nat) (exponent : Int) : Neighbourhood :=
  let (unit, den) := fraction 1 (exponent - 2)
  let below := if significand = 1 <<< 52 ∧ -1074 < exponent then 1 else 2
  { low := (4 * significand - below) * unit
    mid := 4 * significand * unit
    high := (4 * significand + 2) * unit
    den := den
    closed := significand % 2 = 0 }

/-- The fraction `digits · 10 ^ power`. -/
def decimalFraction (digits : Nat) (power : Int) : Nat × Nat :=
  if 0 ≤ power then (digits * Decimal.tenTo power.toNat, 1)
  else (digits, Decimal.tenTo (-power).toNat)

/-- Whether `digits · 10 ^ power` reads back as the number. -/
def Neighbourhood.holds (near : Neighbourhood) (digits : Nat) (power : Int) : Bool :=
  let (num, den) := decimalFraction digits power
  if near.closed then near.low * den ≤ num * near.den ∧ num * near.den ≤ near.high * den
  else near.low * den < num * near.den ∧ num * near.den < near.high * den

/-- The digits of the number on the grid of `10 ^ power`, rounded down. -/
def Neighbourhood.floorDigits (near : Neighbourhood) (power : Int) : Nat :=
  let (num, den) := decimalFraction 1 power
  near.mid * den / (near.den * num)

/-- Whether the number is nearer to `digits` than to `digits + 1` on the grid of `10 ^ power`. -/
def Neighbourhood.nearerBelow (near : Neighbourhood) (digits : Nat) (power : Int) : Bool :=
  let (num, den) := decimalFraction (2 * digits + 1) power
  2 * near.mid * den < num * near.den

/-- The place of the leading digit of `num / den`, a positive quotient, as a power of ten. -/
def leadingPower (num den : Nat) : Int :=
  if den ≤ num then (Nat.toDigits 10 (num / den)).length - 1
  else -((Nat.toDigits 10 ((den - 1) / num)).length : Int)

/-- The first point that reads back, on grids that get finer by a factor of ten; of two points on
one grid the nearer one, and the greater one if they are equally near. -/
def Neighbourhood.search (near : Neighbourhood) : Nat → Int → Nat × Int
  | 0, power => (near.floorDigits power, power)
  | grids + 1, power =>
    let digits := near.floorDigits power
    match near.holds digits power, near.holds (digits + 1) power with
    | true, true =>
      if near.nearerBelow digits power then (digits, power) else (digits + 1, power)
    | true, false => (digits, power)
    | false, true => (digits + 1, power)
    | false, false => near.search grids (power - 1)

/-- The fewest digits that read back, and the power of ten of the last of them. Seventeen digits are
always enough. -/
def shortest (significand : Nat) (exponent : Int) : Nat × Int :=
  let near := neighbourhood significand exponent
  near.search 17 (leadingPower near.mid near.den)

/-- The digits of `digits · 10 ^ power` behind the point, with zeros in front that fill their
places. -/
def padded (digits : Nat) (power : Int) : List Char :=
  let (num, den) := decimalFraction digits power
  let part := Nat.toDigits 10 (num % den)
  List.replicate ((-power).toNat - part.length) '0' ++ part

/-- The text of `digits · 10 ^ power` without an exponent. -/
def positional (digits : Nat) (power : Int) : String :=
  let (num, den) := decimalFraction digits power
  let kept := ((padded digits power).reverse.dropWhile (· = '0')).reverse
  if kept.isEmpty then Decimal.ofNat (num / den)
  else Decimal.ofNat (num / den) ++ "." ++ String.ofList kept

def text : Binary64 → String
  | .nan => "NaN"
  | .infinite negative => if negative then "-inf" else "inf"
  | .finite negative significand exponent =>
    let magnitude :=
      if significand = 0 then "0"
      else
        let (digits, power) := shortest significand exponent
        positional digits power
    if negative then "-" ++ magnitude else magnitude

end PrefixArith.Binary64
