import PrefixArith.Log
import PrefixArith.Line

/-!
# The records of a run

Each thing that a run notes about its work, as a log record.
-/
namespace PrefixArith.Log.Record

open PrefixArith

/-- The record of an event on the way to the answer of a line. -/
def ofEvent : Line.Event → Record
  | .trailing count =>
    ⟨.debug, "smtcalc::interpreter::parser", "ignoring tokens after a complete formula",
      [("trailing", Decimal.ofNat count)]⟩
  | .solved tokens nodes value =>
    ⟨.debug, "smtcalc", "solved formula",
      [("tokens", Decimal.ofNat tokens), ("nodes", Decimal.ofNat nodes),
        ("value", Decimal.ofInt64 value)]⟩

/-- Generated formulas have been written to a file. -/
def wrote (count : Nat) (path : String) : Record :=
  ⟨.debug, "smtcalc", "wrote generated formulas", [("count", Decimal.ofNat count), ("path", path)]⟩

/-- A line has no value. -/
def failed (line column : Nat) : Record :=
  ⟨.warn, "smtcalc", "formula failed",
    [("line", Decimal.ofNat line), ("column", Decimal.ofNat column)]⟩

end PrefixArith.Log.Record
