import PrefixArith.Decimal

/-!
# Operators

Addition, subtraction and multiplication, once on the integers and once on signed 64-bit words,
where results wrap around. `overflows` tells when the two differ.
-/
namespace PrefixArith

/-- What happens to a result that does not fit into a word. -/
inductive Overflow where
  | wrapping | checked
  deriving DecidableEq, Repr

inductive Operator where
  | add | subtract | multiply
  deriving DecidableEq, Repr

namespace Operator

def text : Operator → String
  | .add => "+"
  | .subtract => "-"
  | .multiply => "*"

def ofText? (text : String) : Option Operator :=
  if text = "+" then some .add
  else if text = "-" then some .subtract
  else if text = "*" then some .multiply
  else none

/-- The exact result. -/
def onInts : Operator → Int → Int → Int
  | .add, a, b => a + b
  | .subtract, a, b => a - b
  | .multiply, a, b => a * b

/-- The result on words, which wraps around. -/
def onWords : Operator → Int64 → Int64 → Int64
  | .add, a, b => a + b
  | .subtract, a, b => a - b
  | .multiply, a, b => a * b

/-- The exact result on the two words is no word. -/
def overflows (operator : Operator) (a b : Int64) : Bool :=
  ¬ Decimal.Fits (operator.onInts a.toInt b.toInt)

end Operator

end PrefixArith
