import PrefixArith.Binary64.Shortest

/-!
# Settings of random formulas

Literals come from a range of words. An operand is another operation with a given probability, as
long as fewer than `levels` operations stand around it; the outermost operation does not need a
level.
-/
namespace PrefixArith.Formula

structure Settings where
  least : Int64 := -10
  greatest : Int64 := 9
  nesting : Binary64 := .finite false (1 <<< 52) (-54)
  levels : Nat := 8
  deriving DecidableEq, Repr

/-- Why no formulas can be drawn with given settings. -/
inductive SettingsError where
  | emptyRange (least greatest : Int64)
  | badNesting (nesting : Binary64)
  deriving DecidableEq, Repr

def SettingsError.message : SettingsError → String
  | .emptyRange least greatest =>
    s!"Literal range {Decimal.ofInt64 least}..={Decimal.ofInt64 greatest} is empty."
  | .badNesting nesting => s!"Nesting probability {nesting.text} must lie between 0 and 1."

/-- The first reason against the settings, the range before the probability. -/
def Settings.error? (settings : Settings) : Option SettingsError :=
  if settings.greatest.toInt < settings.least.toInt then
    some (.emptyRange settings.least settings.greatest)
  else if !settings.nesting.isProbability then some (.badNesting settings.nesting)
  else none

end PrefixArith.Formula
