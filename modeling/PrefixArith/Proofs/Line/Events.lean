import PrefixArith.Log.Records
import PrefixArith.Proofs.Line.Answer

/-!
# The records of a line

The records that a line leaves account for its tokens: each belongs to the term, is passed over
behind it or is a parenthesis (`accounted_records`). One of the records tells the value, exactly if
the answer is one (`value_or_not`). A line that is not read leaves none.
-/
namespace PrefixArith.Line
open Log (Record)
open Token (isParen scan significant)

/-- The records of a line, in order. -/
def records (mode : Overflow) (line : String) : List Record :=
  (report mode line).events.map .ofEvent

/-- The record of tokens that are passed over. -/
def passedOver (count : Nat) : Record :=
  ⟨.debug, "smtcalc::interpreter::parser", "ignoring tokens after a complete formula",
    [("trailing", Decimal.ofNat count)]⟩

/-- The record of a line whose term has the value `v`: how many tokens and nodes there are, and the
value in plain decimal. -/
def SolvedBy (line : String) (term : Term) (v : Int64) (record : Record) : Prop :=
  ∃ value, Decimal.Canonical v.toInt value ∧
    record = ⟨.debug, "smtcalc", "solved formula",
      [("tokens", Decimal.ofNat (scan line).length), ("nodes", Decimal.ofNat term.size),
        ("value", value)]⟩

/-- Records that account for a line. If it is read as a term, its tokens are those of the term, the
ones left behind it and parentheses. Tokens left are noted first, whether or not the term has a
value, and then the value is, if there is one. Nothing is noted of a line that is blank or not
read. -/
structure Accounted (mode : Overflow) (line : String) (records : List Record) : Prop where
  blank : scan line = [] → records = []
  unread : ∀ error, Term.ofTokens (scan line) line.utf8ByteSize = .error error → records = []
  read : ∀ term, Term.ofTokens (scan line) line.utf8ByteSize = .ok term →
    ∃ left solved, significant (scan line) = term.tokens ++ left ∧
      (scan line).length = term.size + left.length + ((scan line).filter isParen).length ∧
      records = (if left = [] then [] else [passedOver left.length]) ++ solved ∧
      (∀ v, term.value mode = .ok v → ∃ record, solved = [record] ∧ SolvedBy line term v record) ∧
      ∀ error, term.value mode = .error error → solved = []

section Records
variable {mode : Overflow} {line : String} {term : Term}

theorem records_of_scan_nil (blank : scan line = []) : records mode line = [] := by
  rw [records, report_of_scan_nil blank]
  rfl

theorem records_of_unread {error : ReadError}
    (failure : Term.ofTokens (scan line) line.utf8ByteSize = .error error) :
    records mode line = [] := by
  by_cases blank : scan line = []
  · exact records_of_scan_nil blank
  · rw [records, report_of_unread blank failure]
    rfl

/-- The record of the value that the term of a line has, if it has one. -/
def solvedRecords (mode : Overflow) (line : String) (term : Term) : List Record :=
  (solvedEvents (scan line).length term.size (term.value mode)).map .ofEvent

theorem solvedRecords_of_ok {v : Int64} (result : term.value mode = .ok v) :
    ∃ record, solvedRecords mode line term = [record] ∧ SolvedBy line term v record := by
  rw [solvedRecords, result]
  exact ⟨_, rfl, Decimal.ofInt64 v, Decimal.canonical_ofInt v.toInt, rfl⟩

theorem solvedRecords_of_error {error : EvalError} (failure : term.value mode = .error error) :
    solvedRecords mode line term = [] := by
  rw [solvedRecords, failure]
  rfl

theorem map_trailingEvents (rest : List Token) :
    (trailingEvents rest).map Record.ofEvent =
      if significant rest = [] then [] else [passedOver (significant rest).length] := by
  rw [trailingEvents, ← significant]
  cases significant rest <;> rfl

theorem records_of_read (success : Term.ofTokens (scan line) line.utf8ByteSize = .ok term) :
    records mode line =
      (if significant (remaining line) = [] then []
        else [passedOver (significant (remaining line)).length]) ++
          solvedRecords mode line term := by
  rw [records, report_of_read success, List.map_append, map_trailingEvents, solvedRecords]

theorem significant_scan_of_read
    (success : Term.ofTokens (scan line) line.utf8ByteSize = .ok term) :
    significant (scan line) = term.tokens ++ significant (remaining line) :=
  ((Term.reads_readWithin line.utf8ByteSize Term.nestingLimit (scan line)).listed success).2.2.1

theorem accounted_records (mode : Overflow) (line : String) :
    Accounted mode line (records mode line) where
  blank := records_of_scan_nil
  unread _ := records_of_unread
  read term success := by
    have listed := significant_scan_of_read success
    have total := Token.length_eq_significant_add (scan line)
    rw [listed, List.length_append, term.tokens_length] at total
    exact ⟨_, _, listed, total, records_of_read success, fun v => solvedRecords_of_ok,
      fun error => solvedRecords_of_error⟩

/-! ## The record of the value -/

/-- The record tells a value. -/
def tellsValue (record : Record) : Bool := record.message = "solved formula"

theorem tellsValue_passedOver (count : Nat) : tellsValue (passedOver count) = false := by
  simp [tellsValue, passedOver]

theorem SolvedBy.tellsValue_eq {v : Int64} {record : Record}
    (solved : SolvedBy line term v record) :
    tellsValue record = true := by
  obtain ⟨value, -, rfl⟩ := solved
  simp [tellsValue]

theorem filter_records_of_read
    (success : Term.ofTokens (scan line) line.utf8ByteSize = .ok term) :
    (records mode line).filter tellsValue = (solvedRecords mode line term).filter tellsValue := by
  rw [records_of_read success, List.filter_append]
  split <;> simp [tellsValue_passedOver]

/-- One record tells the value if the answer is one, and none does otherwise. -/
theorem value_or_not (mode : Overflow) (line : String) :
    (∃ term v record, Term.ofTokens (scan line) line.utf8ByteSize = .ok term ∧
      answer? mode line = some (.value v) ∧ SolvedBy line term v record ∧
      (records mode line).filter tellsValue = [record]) ∨
    ((∀ v, answer? mode line ≠ some (.value v)) ∧ (records mode line).filter tellsValue = []) := by
  cases outcome : Term.ofTokens (scan line) line.utf8ByteSize with
  | error error =>
    right
    refine ⟨?_, by rw [records_of_unread outcome, List.filter_nil]⟩
    intro v
    by_cases blank : scan line = []
    · simp [answer?_of_scan_nil blank]
    · simp [answer?_of_unread blank outcome]
  | ok term =>
    cases result : term.value mode with
    | error error =>
      right
      refine ⟨?_, by rw [filter_records_of_read outcome, solvedRecords_of_error result,
        List.filter_nil]⟩
      intro v
      simp [answer?_of_read outcome, result, Answer.ofValue]
    | ok v =>
      left
      obtain ⟨record, only, solved⟩ : ∃ record,
          solvedRecords mode line term = [record] ∧ SolvedBy line term v record :=
        solvedRecords_of_ok result
      refine ⟨term, v, record, rfl, ?_, solved, ?_⟩
      · rw [answer?_of_read outcome, result, Answer.ofValue]
      · rw [filter_records_of_read outcome, only, List.filter_singleton, solved.tellsValue_eq]
        rfl

end Records

end PrefixArith.Line
