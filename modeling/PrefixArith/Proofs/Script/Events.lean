import Mathlib.Data.List.Forall2
import PrefixArith.Proofs.Line.Events
import PrefixArith.Proofs.Script.Lines

/-!
# The records of a script

A script leaves the records of its lines, one line after the other. Those that tell a value are, in
order, those of the outcomes that are values.
-/
namespace PrefixArith.Script
open Log (Record)
open Token (scan)

/-- The records of a script, in order. -/
def records (mode : Overflow) (source : String) : List Record := (events mode source).map .ofEvent

theorem records_eq (mode : Overflow) (source : String) :
    records mode source = (Text.lines source).flatMap (Line.records mode) := by
  rw [records, events, List.map_flatMap]
  rfl

/-- The outcome is a value. -/
def Outcome.isValue (outcome : Outcome) : Bool :=
  match outcome.answer with
  | .value _ => true
  | .fault _ => false

/-- The record tells the value of the outcome, which belongs to one of the lines, numbered from
`number`. -/
def Tells (number : Nat) (lines : List String) (record : Record) (outcome : Outcome) : Prop :=
  ∃ n line term v, outcome = ⟨number + n, .value v⟩ ∧ lines[n]? = some line ∧
    Term.ofTokens (scan line) line.utf8ByteSize = .ok term ∧ Line.SolvedBy line term v record

theorem Tells.cons {number : Nat} {lines : List String} {record : Record} {outcome : Outcome}
    (tells : Tells (number + 1) lines record outcome) (line : String) :
    Tells number (line :: lines) record outcome := by
  obtain ⟨n, line, term, v, rfl, found, read, solved⟩ := tells
  exact ⟨n + 1, line, term, v, by rw [Nat.add_assoc, Nat.add_comm 1], found, read, solved⟩

theorem forall₂_tells (mode : Overflow) (number : Nat) (lines : List String) :
    List.Forall₂ (Tells number lines)
      ((lines.flatMap (Line.records mode)).filter Line.tellsValue)
      ((outcomesFrom mode number lines).filter Outcome.isValue) := by
  induction lines generalizing number with
  | nil => exact .nil
  | cons line rest ih =>
    have later := (ih (number + 1)).imp fun _ _ tells => tells.cons line
    rw [List.flatMap_cons, List.filter_append, outcomesFrom_cons, List.filter_append]
    rcases Line.value_or_not mode line with ⟨term, v, record, read, answered, solved, only⟩ |
        ⟨others, nothing⟩
    · rw [only, answered]
      exact .cons ⟨0, line, term, v, rfl, rfl, read, solved⟩ later
    · rw [nothing]
      cases answered : Line.answer? mode line with
      | none => exact later
      | some answer =>
        cases answer with
        | value v => exact absurd answered (others v)
        | fault fault => exact later

/-- The records of a line account for its tokens, and those of a script are those of its lines in
order. The ones that tell a value are, one by one, those of the outcomes that are values: each gives
the value itself, the nodes of the term that its line holds and the tokens of that line. -/
theorem records_account_for_lines (mode : Overflow) :
    (∀ line, Line.Accounted mode line (Line.records mode line)) ∧
    ∀ source, records mode source = (Text.lines source).flatMap (Line.records mode) ∧
      List.Forall₂ (Tells 1 (Text.lines source))
        ((records mode source).filter (·.message = "solved formula"))
        ((outcomes mode source).filter Outcome.isValue) := by
  refine ⟨Line.accounted_records mode, fun source => ⟨records_eq mode source, ?_⟩⟩
  rw [records_eq, outcomes_eq]
  exact forall₂_tells mode 1 (Text.lines source)

/-- The tokens behind a sum are noted although it overflows; the lines around it are blank or not
read. -/
example :
    records .checked "(+ 1)\n(+ 9223372036854775807 1) 2 (3)\n\té\n(* 2 -3)" =
      [Line.passedOver 2,
        ⟨.debug, "smtcalc", "solved formula",
        [("tokens", "5"), ("nodes", "3"), ("value", "-6")]⟩] := by
  decide +kernel

end PrefixArith.Script
