import PrefixArith.Text.Lines
import PrefixArith.Line

/-!
# Answering a script

A script holds one formula a line. Its lines are answered on their own, so a fault on one of them
changes no other answer. Lines are numbered from one, and those without tokens are passed over.
-/
namespace PrefixArith.Script

/-- The answer to one line of a script. -/
structure Outcome where
  line : Nat
  answer : Line.Answer
  deriving DecidableEq, Repr

def outcomes (mode : Overflow) (source : String) : List Outcome :=
  ((Text.lines source).zipIdx 1).filterMap fun (line, number) =>
    (Line.answer? mode line).map fun answer => ⟨number, answer⟩

/-- The events of all lines, in order. -/
def events (mode : Overflow) (source : String) : List Line.Event :=
  (Text.lines source).flatMap fun line => (Line.report mode line).events

end PrefixArith.Script
