import PrefixArith.Decimal

/-!
# Solver notation

Results are written the way solvers write integers: a negative value is the negation of its
magnitude, as in `(- 7)`, because the notation has no negative literals.
-/
namespace PrefixArith.SolverText

/-- The distance from zero, which for the least word is no word itself. -/
def magnitude (value : Int64) : Nat := value.toInt.natAbs

def ofInt64 (value : Int64) : String :=
  if value.toInt < 0 then "(- " ++ Decimal.ofNat (magnitude value) ++ ")"
  else Decimal.ofNat (magnitude value)

end PrefixArith.SolverText
