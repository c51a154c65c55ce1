import PrefixArith.CommandLine.Run
import PrefixArith.Proofs.Line.Messages
import PrefixArith.Proofs.Script.Lines

/-!
# The two streams

Without a log the error stream of a run has its error lines alone. Neither a result nor an error
line can be broken, so what the streams hold is read back line by line (`lines_stacked`), and each
line of a file adds one line to one of them if it has tokens, and nothing otherwise (`additions`).
-/
namespace PrefixArith.CommandLine

open Text (Unbroken)

@[simp] theorem stacked_nil : stacked [] = "" := rfl

@[simp] theorem stacked_singleton (text : String) : stacked [text] = text ++ "\n" := by
  simp [stacked]

theorem outputText_failed (code : Nat) (message : String) :
    (Result.failed code message).outputText = "" := rfl

theorem errorText_failed (filter : Log.Filter) (code : Nat) (message : String) :
    (Result.failed code message).errorText filter = message ++ "\n" :=
  stacked_singleton message

/-- The error line of an outcome. -/
def errorLine? (outcome : Script.Outcome) : Option String :=
  match outcome.answer with
  | .value _ => none
  | .fault fault => some s!"Error on line {outcome.line}: {fault.message}"

/-! ## Without a log -/

section Off
variable {filter : Log.Filter}

theorem shown?_logged (off : filter.level? = none) (record : Log.Record) :
    (Notice.logged record).shown? filter = none := by
  rw [Notice.shown?, Log.Filter.shows, off]
  rfl

theorem filterMap_faultNotices (off : filter.level? = none) (outcome : Script.Outcome) :
    (faultNotices outcome).filterMap (Notice.shown? filter) = (errorLine? outcome).toList := by
  obtain ⟨number, answer⟩ := outcome
  cases answer with
  | value v => rfl
  | fault fault =>
    rw [faultNotices, List.filterMap_cons_none (shown?_logged off _)]
    rfl

theorem shown_answerBytes (off : filter.level? = none) (mode : Overflow) (bytes : List UInt8) :
    (answerBytes mode bytes).shown filter =
      (Script.outcomes mode (Text.Utf8.decode bytes)).filterMap errorLine? := by
  have events : ∀ notice ∈ (Script.events mode (Text.Utf8.decode bytes)).map
      (fun event => Notice.logged (.ofEvent event)), notice.shown? filter = none := by
    intro notice mem
    obtain ⟨event, -, rfl⟩ := List.mem_map.mp mem
    exact shown?_logged off _
  rw [Result.shown, answerBytes, List.filterMap_append, List.filterMap_eq_nil_iff.mpr events,
    List.nil_append, List.filterMap_flatMap, List.filterMap_eq_flatMap_toList]
  simp only [filterMap_faultNotices off]

theorem errorText_answerBytes (off : filter.level? = none) (mode : Overflow) (bytes : List UInt8) :
    (answerBytes mode bytes).errorText filter =
      stacked ((Script.outcomes mode (Text.Utf8.decode bytes)).filterMap errorLine?) := by
  rw [Result.errorText, shown_answerBytes off]

end Off

theorem outputText_answerBytes (mode : Overflow) (bytes : List UInt8) :
    (answerBytes mode bytes).outputText =
      stacked ((Script.outcomes mode (Text.Utf8.decode bytes)).filterMap resultLine?) := rfl

/-! ## Lines of the streams -/

/-- Texts without line ends are read back from a stream as they are. -/
theorem lines_stacked {texts : List String} (unbroken : ∀ text ∈ texts, Unbroken text) :
    Text.lines (stacked texts) = texts :=
  Text.lines_join_feed unbroken

section Outcomes
variable {mode : Overflow} {source : String}

theorem unbroken_of_resultLine {outcome : Script.Outcome} {text : String}
    (result : resultLine? outcome = some text) : Unbroken text := by
  obtain ⟨number, answer⟩ := outcome
  cases answer with
  | value v =>
    cases result
    exact Text.unbroken_solverText v
  | fault fault => cases result

theorem unbroken_of_errorLine {outcome : Script.Outcome}
    (mem : outcome ∈ Script.outcomes mode source)
    {text : String} (error : errorLine? outcome = some text) : Unbroken text := by
  obtain ⟨n, line, -, -, answered⟩ := Script.mem_outcomesFrom.mp mem
  obtain ⟨number, answer⟩ := outcome
  cases answer with
  | value v => cases error
  | fault fault =>
    cases error
    have message : Unbroken fault.message := Line.unbroken_message answered
    have place : Unbroken (toString number) := Text.unbroken_ofNat number
    rw [Text.unbroken_append, Text.unbroken_append, Text.unbroken_append]
    exact ⟨⟨⟨by decide +kernel, place⟩, by decide +kernel⟩, message⟩

theorem lines_results (mode : Overflow) (source : String) :
    Text.lines (stacked ((Script.outcomes mode source).filterMap resultLine?)) =
      (Script.outcomes mode source).filterMap resultLine? := by
  refine lines_stacked fun text mem => ?_
  obtain ⟨outcome, -, result⟩ := List.mem_filterMap.mp mem
  exact unbroken_of_resultLine result

theorem lines_errors (mode : Overflow) (source : String) :
    Text.lines (stacked ((Script.outcomes mode source).filterMap errorLine?)) =
      (Script.outcomes mode source).filterMap errorLine? := by
  refine lines_stacked fun text mem => ?_
  obtain ⟨outcome, inside, error⟩ := List.mem_filterMap.mp mem
  exact unbroken_of_errorLine inside error

end Outcomes

/-- Every outcome has either a result line or an error line. -/
theorem length_results_add_errors (outcomes : List Script.Outcome) :
    (outcomes.filterMap resultLine?).length + (outcomes.filterMap errorLine?).length =
      outcomes.length := by
  induction outcomes with
  | nil => rfl
  | cons outcome outcomes ih =>
    obtain ⟨number, answer⟩ := outcome
    cases answer <;>
    · simp only [List.filterMap_cons, resultLine?, errorLine?, List.length_cons]
      omega

/-! ## What one line adds -/

/-- What the line of a number adds to the output stream and to the error stream. -/
def additions (mode : Overflow) (line : String) (number : Nat) : List String × List String :=
  match Line.answer? mode line with
  | none => ([], [])
  | some answer => ((resultLine? ⟨number, answer⟩).toList, (errorLine? ⟨number, answer⟩).toList)

theorem filterMap_outcomes (mode : Overflow) (source : String) :
    (Script.outcomes mode source).filterMap resultLine? =
        ((Text.lines source).zipIdx 1).flatMap
          (fun (line, number) => (additions mode line number).1) ∧
      (Script.outcomes mode source).filterMap errorLine? =
        ((Text.lines source).zipIdx 1).flatMap fun (line, number) =>
          (additions mode line number).2 := by
  constructor <;>
  · rw [Script.outcomes, List.filterMap_filterMap, List.filterMap_eq_flatMap_toList]
    refine List.flatMap_congr ?_
    rintro ⟨line, number⟩ -
    simp only [additions]
    cases Line.answer? mode line <;> rfl

/-- A line with tokens adds one line to one of the streams. -/
theorem additions_of_tokens {line : String} (tokens : Token.scan line ≠ []) (mode : Overflow)
    (number : Nat) :
    ∃ text, additions mode line number = ([text], []) ∨
      additions mode line number = ([], [text]) := by
  obtain ⟨answer, found⟩ := (Line.exists_answer?_iff mode line).mpr tokens
  rw [additions, found]
  cases answer with
  | value v => exact ⟨_, .inl rfl⟩
  | fault fault => exact ⟨_, .inr rfl⟩

theorem additions_of_blank {line : String} (blank : Token.scan line = []) (mode : Overflow)
    (number : Nat) : additions mode line number = ([], []) := by
  rw [additions, Line.answer?_of_scan_nil blank]

end PrefixArith.CommandLine
