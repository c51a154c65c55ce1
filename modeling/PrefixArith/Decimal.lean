/-!
# Decimal text

Integers as decimal text. Reading takes one optional sign and then ASCII digits only, at least one
of them; leading zeros do not matter. Writing gives the digits without leading zeros, after a minus
sign for a negative number.
-/
namespace PrefixArith.Decimal

/-- The number that a digit string stands for. -/
def natOfDigits? (digits : List Char) : Option Nat :=
  if digits ≠ [] ∧ digits.all Char.isDigit then some (Nat.ofDigitChars 10 digits 0) else none

/-- Reads a number that may carry a plus sign. -/
def natOfChars? : List Char → Option Nat
  | '+' :: digits => natOfDigits? digits
  | digits => natOfDigits? digits

/-- Reads an integer that may carry either sign. -/
def intOfChars? : List Char → Option Int
  | '-' :: digits => (natOfDigits? digits).map fun n => -(n : Int)
  | '+' :: digits => (natOfDigits? digits).map fun n => (n : Int)
  | digits => (natOfDigits? digits).map fun n => (n : Int)

/-- The integers that a signed 64-bit word holds. -/
def Fits (z : Int) : Prop := Int64.minValue.toInt ≤ z ∧ z ≤ Int64.maxValue.toInt

instance (z : Int) : Decidable (Fits z) := inferInstanceAs (Decidable (_ ∧ _))

/-- Reads a signed word; an integer that does not fit is refused. -/
def int64OfText? (text : String) : Option Int64 :=
  match intOfChars? text.toList with
  | some z => if Fits z then some (Int64.ofInt z) else none
  | none => none

/-- Reads an unsigned word; a number that does not fit is refused. -/
def uint64OfText? (text : String) : Option UInt64 :=
  match natOfChars? text.toList with
  | some n => if n < UInt64.size then some (UInt64.ofNat n) else none
  | none => none

/-- The power of ten with `n` zeros. -/
def tenTo (n : Nat) : Nat := Nat.pow 10 n

def ofNat (n : Nat) : String := String.ofList (Nat.toDigits 10 n)

def ofInt (z : Int) : String :=
  if z < 0 then "-" ++ ofNat z.natAbs else ofNat z.natAbs

def ofInt64 (v : Int64) : String := ofInt v.toInt

end PrefixArith.Decimal
