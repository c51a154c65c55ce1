import PrefixArith.Line
import PrefixArith.Proofs.Term.Exact
import PrefixArith.Proofs.Term.Reading

/-!
# The answer to a line

What a line reports and answers, in terms of its tokens and its term, and how the answers of the two
ways of evaluation compare.
-/
namespace PrefixArith.Line

/-- The answer that an evaluation gives. -/
def Answer.ofValue : Except EvalError Int64 → Answer
  | .ok v => .value v
  | .error error => .fault (.evaluation error)

/-- The event of an evaluation that gives a value. -/
def solvedEvents (tokens nodes : Nat) : Except EvalError Int64 → List Event
  | .ok v => [.solved tokens nodes v]
  | .error _ => []

variable {mode : Overflow} {line : String}

/-! ## Reports -/

theorem report_of_scan_nil (blank : Token.scan line = []) : report mode line = ⟨none, []⟩ := by
  rw [report, blank]

theorem report_of_unread {error : ReadError} (tokens : Token.scan line ≠ [])
    (failure : Term.ofTokens (Token.scan line) line.utf8ByteSize = .error error) :
    report mode line = ⟨some (.fault (.reading error)), []⟩ := by
  obtain ⟨first, others, scanned⟩ := List.exists_cons_of_ne_nil tokens
  rw [scanned] at failure
  rw [report, scanned]
  cases outcome : Term.read line.utf8ByteSize (first :: others) with
  | mk result rest =>
    rw [Term.ofTokens, outcome] at failure
    subst failure
    simp only [outcome]

theorem scan_ne_nil_of_read {term : Term}
    (success : Term.ofTokens (Token.scan line) line.utf8ByteSize = .ok term) :
    Token.scan line ≠ [] := by
  intro blank
  rw [blank] at success
  cases success

/-- What is left when a line is read. -/
def remaining (line : String) : List Token := (Term.read line.utf8ByteSize (Token.scan line)).2

theorem report_of_read {term : Term}
    (success : Term.ofTokens (Token.scan line) line.utf8ByteSize = .ok term) :
    report mode line = ⟨some (.ofValue (term.value mode)),
      trailingEvents (remaining line) ++
        solvedEvents (Token.scan line).length term.size (term.value mode)⟩ := by
  obtain ⟨first, others, scanned⟩ := List.exists_cons_of_ne_nil (scan_ne_nil_of_read success)
  rw [remaining]
  rw [scanned] at success ⊢
  rw [report, scanned]
  cases outcome : Term.read line.utf8ByteSize (first :: others) with
  | mk result rest =>
    rw [Term.ofTokens, outcome] at success
    subst success
    simp only [outcome]
    cases term.value mode with
    | ok v => rfl
    | error error => simp only [solvedEvents, Answer.ofValue, List.append_nil]

/-! ## Answers -/

theorem answer?_of_scan_nil (blank : Token.scan line = []) : answer? mode line = none := by
  rw [answer?, report_of_scan_nil blank]

theorem answer?_of_unread {error : ReadError} (tokens : Token.scan line ≠ [])
    (failure : Term.ofTokens (Token.scan line) line.utf8ByteSize = .error error) :
    answer? mode line = some (.fault (.reading error)) := by
  rw [answer?, report_of_unread tokens failure]

theorem answer?_of_read {term : Term}
    (success : Term.ofTokens (Token.scan line) line.utf8ByteSize = .ok term) :
    answer? mode line = some (.ofValue (term.value mode)) := by
  rw [answer?, report_of_read success]

theorem answer?_of_tooDeep {limit offset : Nat}
    (failure : Term.ofTokens (Token.scan line) line.utf8ByteSize = .error (.tooDeep limit offset)) :
    answer? mode line = some (.fault (.reading (.tooDeep limit offset))) := by
  refine answer?_of_unread ?_ failure
  intro blank
  rw [blank] at failure
  cases failure

/-- Every line with a token is answered. -/
theorem exists_answer?_iff (mode : Overflow) (line : String) :
    (∃ answer, answer? mode line = some answer) ↔ Token.scan line ≠ [] := by
  constructor
  · rintro ⟨answer, found⟩ blank
    rw [answer?_of_scan_nil blank] at found
    cases found
  · intro tokens
    cases outcome : Term.ofTokens (Token.scan line) line.utf8ByteSize with
    | error error => exact ⟨_, answer?_of_unread tokens outcome⟩
    | ok term => exact ⟨_, answer?_of_read outcome⟩

/-- A fault comes from the reading of the tokens or from the evaluation of the term that was
read. -/
theorem answer?_eq_fault {fault : Fault} (answer : answer? mode line = some (.fault fault)) :
    (∃ error, fault = .reading error ∧
      Term.ofTokens (Token.scan line) line.utf8ByteSize = .error error) ∨
    ∃ error term, fault = .evaluation error ∧
      Term.ofTokens (Token.scan line) line.utf8ByteSize = .ok term ∧
      term.value mode = .error error := by
  by_cases blank : Token.scan line = []
  · rw [answer?_of_scan_nil blank] at answer
    cases answer
  · cases outcome : Term.ofTokens (Token.scan line) line.utf8ByteSize with
    | error error =>
      rw [answer?_of_unread blank outcome] at answer
      cases answer
      exact .inl ⟨error, rfl, rfl⟩
    | ok term =>
      rw [answer?_of_read outcome] at answer
      cases result : term.value mode with
      | ok v =>
        rw [result] at answer
        cases answer
      | error error =>
        rw [result] at answer
        cases answer
        exact .inr ⟨error, term, rfl, rfl, result⟩

/-- The second answer is the first one or reports an overflow. -/
def Answer.AgreesOrOverflows (wrapped checked : Answer) : Prop :=
  wrapped = checked ∨ ∃ offset, checked = .fault (.evaluation (.overflow offset))

/-- Both ways of evaluation answer the same lines, and differ only where the checked one reports an
overflow. -/
theorem answer?_modes (line : String) :
    Option.Rel Answer.AgreesOrOverflows (answer? .wrapping line) (answer? .checked line) := by
  by_cases blank : Token.scan line = []
  · rw [answer?_of_scan_nil blank, answer?_of_scan_nil blank]
    exact .none
  · cases outcome : Term.ofTokens (Token.scan line) line.utf8ByteSize with
    | error error =>
      rw [answer?_of_unread blank outcome, answer?_of_unread blank outcome]
      exact .some (.inl rfl)
    | ok term =>
      rw [answer?_of_read outcome, answer?_of_read outcome]
      apply Option.Rel.some
      rcases term.value_modes with same | ⟨offset, overflow⟩
      · exact .inl (by rw [same])
      · exact .inr ⟨offset, by rw [overflow, Answer.ofValue]⟩

end PrefixArith.Line
