/-!
# Double precision numbers

The numbers of the binary64 format with their exact values, computed with integers throughout. A
finite number is `significand · 2 ^ exponent` with a sign. Comparison and scaling go by that value,
so they do not depend on which of several pairs names it.
-/
namespace PrefixArith

inductive Binary64 where
  | nan
  | infinite (negative : Bool)
  | finite (negative : Bool) (significand : Nat) (exponent : Int)
  deriving DecidableEq, Repr

namespace Binary64

/-- The magnitude `significand · 2 ^ exponent` as numerator and denominator. -/
def fraction (significand : Nat) (exponent : Int) : Nat × Nat :=
  if 0 ≤ exponent then (significand <<< exponent.toNat, 1)
  else (significand, 1 <<< (-exponent).toNat)

/-- Whether the number lies between 0 and 1; a negative zero does. -/
def isProbability : Binary64 → Bool
  | .finite negative significand exponent =>
    let (num, den) := fraction significand exponent
    significand = 0 || (!negative && num ≤ den)
  | _ => false

def isOne : Binary64 → Bool
  | .finite negative significand exponent =>
    let (num, den) := fraction significand exponent
    !negative && num = den
  | _ => false

/-- The whole part of the magnitude times `2 ^ 64`; numbers that are not finite count as 0. -/
def scaled : Binary64 → Nat
  | .finite _ significand exponent =>
    let (num, den) := fraction significand exponent
    num * UInt64.size / den
  | _ => 0

end Binary64

end PrefixArith
