import PrefixArith.Operator

/-!
# Formulas

A formula applies `simplify` to an expression of operations on literals. This is its written form,
with single spaces between the parts and literals in decimal.
-/
namespace PrefixArith.Formula

inductive Expression where
  | literal (value : Int64)
  | operation (operator : Operator) (left right : Expression)
  deriving DecidableEq, Repr

namespace Expression

def text : Expression → String
  | .literal value => Decimal.ofInt64 value
  | .operation operator left right =>
    "(" ++ operator.text ++ " " ++ left.text ++ " " ++ right.text ++ ")"

/-- How many operations stand around one another at most. -/
def levels : Expression → Nat
  | .literal _ => 0
  | .operation _ left right => max left.levels right.levels + 1

/-- The number of operations. -/
def operations : Expression → Nat
  | .literal _ => 0
  | .operation _ left right => left.operations + right.operations + 1

/-- The literals, from left to right. -/
def literals : Expression → List Int64
  | .literal value => [value]
  | .operation _ left right => left.literals ++ right.literals

end Expression

def text (expression : Expression) : String := "(simplify " ++ expression.text ++ ")"

end PrefixArith.Formula
