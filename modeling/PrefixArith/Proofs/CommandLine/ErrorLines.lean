import PrefixArith.Proofs.CommandLine.Streams
import PrefixArith.Proofs.Log.Records

/-!
# The lines of the error stream

Each line of the error stream comes from a notice, which is a record of the log or a plain message.
A filter hides records only, so the plain lines do not depend on it (`unlogged_errorLines`). A fault
has a record and a plain line directly behind it, and no other plain line is among those of the
outcomes (`Announced`).
-/
namespace PrefixArith.CommandLine

open Log (Filter Record)
open Text (Unbroken)

/-! ## The lines of the error stream -/

/-- What a notice says, shown or not. -/
def Notice.text : Notice → String
  | .logged record => record.text
  | .plain text => text

def Notice.isLogged : Notice → Bool
  | .logged _ => true
  | .plain _ => false

/-- A filter hides records only. -/
def Notice.visible (filter : Filter) : Notice → Bool
  | .logged record => filter.shows record
  | .plain _ => true

/-- A line of the error stream and the notice that it belongs to. -/
structure ErrorLine where
  notice : Notice
  text : String
  deriving DecidableEq, Repr

/-- The lines that a notice takes. A path in it may hold line feeds of its own. -/
def Notice.lines (notice : Notice) : List ErrorLine :=
  (Text.lines (notice.text ++ "\n")).map (ErrorLine.mk notice)

/-- The lines of the error stream for the notices of a run. -/
def errorLines (filter : Filter) (notices : List Notice) : List ErrorLine :=
  (notices.filter (Notice.visible filter)).flatMap Notice.lines

/-- The lines that do not come from the log. -/
def unlogged (lines : List ErrorLine) : List ErrorLine :=
  lines.filter fun line => !line.notice.isLogged

section Lines
variable {filter : Filter}

theorem errorLines_append (notices others : List Notice) :
    errorLines filter (notices ++ others) =
      errorLines filter notices ++ errorLines filter others := by
  rw [errorLines, List.filter_append, List.flatMap_append]
  rfl

theorem errorLines_singleton (filter : Filter) (notice : Notice) :
    errorLines filter [notice] = if notice.visible filter then notice.lines else [] := by
  rw [errorLines, List.filter_singleton]
  cases notice.visible filter
  · rfl
  · exact List.flatMap_singleton ..

theorem unlogged_append (lines others : List ErrorLine) :
    unlogged (lines ++ others) = unlogged lines ++ unlogged others :=
  List.filter_append ..

theorem Notice.notice_of_mem_lines {notice : Notice} {line : ErrorLine}
    (mem : line ∈ notice.lines) :
    line.notice = notice := by
  obtain ⟨text, -, rfl⟩ := List.mem_map.mp mem
  rfl

theorem Notice.lines_of_unbroken {notice : Notice} (unbroken : Unbroken notice.text) :
    notice.lines = [⟨notice, notice.text⟩] := by
  rw [lines, Text.lines_feed unbroken, List.map_singleton]

theorem map_text_lines (notice : Notice) :
    notice.lines.map ErrorLine.text = Text.lines (notice.text ++ "\n") := by
  rw [Notice.lines, List.map_map]
  exact List.map_id _

theorem shown?_eq (filter : Filter) (notice : Notice) :
    notice.shown? filter = if notice.visible filter then some notice.text else none := by
  cases notice <;> rfl

theorem shown_eq (filter : Filter) (result : Result) :
    result.shown filter = (result.notices.filter (Notice.visible filter)).map Notice.text := by
  rw [Result.shown, ← List.filterMap_eq_filter, List.map_filterMap]
  refine List.filterMap_congr fun notice _ => ?_
  rw [shown?_eq, Option.guard]
  split <;> rfl

theorem lines_stacked_eq_flatMap (texts : List String) :
    Text.lines (stacked texts) = texts.flatMap fun text => Text.lines (text ++ "\n") := by
  induction texts with
  | nil => rfl
  | cons text texts ih =>
    rw [stacked, List.map_cons, String.join_cons, Text.lines_append (.inr ⟨text, rfl⟩),
      ← stacked, ih, List.flatMap_cons]

/-- The lines are those of the text on the error stream. -/
theorem map_text_errorLines (filter : Filter) (result : Result) :
    (errorLines filter result.notices).map ErrorLine.text =
      Text.lines (result.errorText filter) := by
  rw [Result.errorText, shown_eq, lines_stacked_eq_flatMap, List.flatMap_map, errorLines,
    List.map_flatMap]
  exact List.flatMap_congr fun notice _ => map_text_lines notice

theorem unlogged_lines (notice : Notice) :
    unlogged notice.lines = if notice.isLogged then [] else notice.lines := by
  unfold unlogged
  split
  · next logged =>
    refine List.filter_eq_nil_iff.mpr fun line mem => ?_
    rw [Notice.notice_of_mem_lines mem, logged]
    exact Bool.false_ne_true
  · next plain =>
    refine List.filter_eq_self.mpr fun line mem => ?_
    rw [Notice.notice_of_mem_lines mem, Bool.not_eq_true']
    exact Bool.not_eq_true _ ▸ plain

/-- Without the log the lines are those of the plain notices, whatever the filter. -/
theorem unlogged_errorLines (filter : Filter) (notices : List Notice) :
    unlogged (errorLines filter notices) =
      (notices.filter fun notice => !notice.isLogged).flatMap Notice.lines := by
  induction notices with
  | nil => rfl
  | cons notice notices ih =>
    rw [← List.singleton_append, errorLines_append, unlogged_append, ih, List.filter_append,
      List.flatMap_append, errorLines_singleton]
    congr 1
    cases notice with
    | plain text => exact (unlogged_lines (.plain text)).trans (List.flatMap_singleton ..).symm
    | logged record =>
      split
      · exact unlogged_lines (.logged record)
      · rfl

end Lines

/-! ## Lines of the log told by their texts -/

/-- The notice takes one line, and that shows whether it comes from the log. -/
def Notice.Recognisable (notice : Notice) : Prop :=
  Unbroken notice.text ∧ Log.looksLogged notice.text = notice.isLogged

/-- The lines that do not look like those of a log. -/
def withoutLog (lines : List String) : List String := lines.filter fun line => !Log.looksLogged line

section Recognisable
variable {filter : Filter} {mode : Overflow}

theorem recognisable_logged {record : Record} (unbroken : Unbroken record.text) :
    (Notice.logged record).Recognisable :=
  ⟨unbroken, record.looksLogged_text⟩

theorem recognisable_faultNotices {source : String} {outcome : Script.Outcome}
    (mem : outcome ∈ Script.outcomes mode source) :
    ∀ notice ∈ faultNotices outcome, notice.Recognisable := by
  obtain ⟨number, answer⟩ := outcome
  cases answer with
  | value v => exact List.forall_mem_nil _
  | fault fault =>
    rw [faultNotices, List.forall_mem_cons, List.forall_mem_singleton]
    refine ⟨recognisable_logged (Record.unbroken_failed _ _), unbroken_of_errorLine mem rfl, ?_⟩
    rw [Notice.text, String.append_assoc, String.append_assoc, Log.looksLogged_append (by decide),
      Notice.isLogged]
    decide

theorem recognisable_answerBytes (mode : Overflow) (bytes : List UInt8) :
    ∀ notice ∈ (answerBytes mode bytes).notices, notice.Recognisable := by
  rw [answerBytes, List.forall_mem_append]
  constructor
  · intro notice mem
    obtain ⟨event, -, rfl⟩ := List.mem_map.mp mem
    exact recognisable_logged (Record.unbroken_ofEvent event)
  · intro notice mem
    obtain ⟨outcome, inside, own⟩ := List.mem_flatMap.mp mem
    exact recognisable_faultNotices inside notice own

theorem withoutLog_errorLines {notices : List Notice}
    (recognisable : ∀ notice ∈ notices, notice.Recognisable) :
    withoutLog ((errorLines filter notices).map ErrorLine.text) =
      (unlogged (errorLines filter notices)).map ErrorLine.text := by
  rw [withoutLog, List.filter_map, unlogged]
  refine congrArg (List.map _) (List.filter_congr fun line mem => ?_)
  obtain ⟨notice, shown, own⟩ := List.mem_flatMap.mp mem
  obtain ⟨unbroken, looks⟩ := recognisable notice (List.mem_of_mem_filter shown)
  rw [Notice.lines_of_unbroken unbroken, List.mem_singleton] at own
  rw [own, Function.comp_apply, looks]

end Recognisable

/-! ## Warnings and error lines -/

/-- The warning of a line that has no value. -/
def warning (number : Nat) (fault : Fault) : ErrorLine :=
  ⟨.logged (.failed number (fault.offset + 1)),
    s!" WARN smtcalc: formula failed line={number} column={fault.offset + 1}"⟩

/-- The error line of a line that has no value. -/
def complaint (number : Nat) (fault : Fault) : ErrorLine :=
  ⟨.plain s!"Error on line {number}: {fault.message}", s!"Error on line {number}: {fault.message}"⟩

/-- What an outcome adds to the error stream where warnings are shown. -/
def faultLines (outcome : Script.Outcome) : List ErrorLine :=
  match outcome.answer with
  | .value _ => []
  | .fault fault => [warning outcome.line fault, complaint outcome.line fault]

def ErrorLine.isWarning (line : ErrorLine) : Bool :=
  match line.notice with
  | .logged record => record.level = .warn
  | .plain _ => false

/-- The lines do not end with a warning. -/
def Settled (lines : List ErrorLine) : Prop := ∀ line ∈ lines.getLast?, line.isWarning = false

/-- Each plain line is the error line of an outcome, and the line before it is the warning of that
outcome, with no other warning before it. -/
def Announced (outcomes : List Script.Outcome) (lines : List ErrorLine) : Prop :=
  ∀ before line after, lines = before ++ line :: after → line.notice.isLogged = false →
    ∃ number fault earlier, ⟨number, .fault fault⟩ ∈ outcomes ∧ line = complaint number fault ∧
      before = earlier ++ [warning number fault] ∧ Settled earlier

section Announced
variable {outcomes : List Script.Outcome} {lines : List ErrorLine} {number : Nat} {fault : Fault}

/-- Lines of the log alone announce nothing. -/
theorem announced_of_logged (logged : ∀ line ∈ lines, line.notice.isLogged = true) :
    Announced outcomes lines := by
  rintro before line after rfl plain
  rw [logged line (by simp)] at plain
  cases plain

theorem Announced.append_pair (announced : Announced outcomes lines) (settled : Settled lines)
    (mem : ⟨number, .fault fault⟩ ∈ outcomes) :
    Announced outcomes (lines ++ [warning number fault, complaint number fault]) := by
  intro before line after split plain
  rcases List.append_eq_append_iff.mp split with ⟨between, rfl, pair⟩ | ⟨between, rfl, rest⟩
  · -- The plain line is one of the pair, and the warning is none.
    cases between with
    | nil =>
      obtain ⟨rfl, -⟩ := List.cons.inj pair
      cases plain
    | cons first between =>
      obtain ⟨rfl, own⟩ := List.cons.inj pair
      cases between with
      | nil =>
        obtain ⟨rfl, -⟩ := List.cons.inj own
        exact ⟨number, fault, lines, mem, rfl, rfl, settled⟩
      | cons second between => simp at own
  · cases between with
    | nil =>
      obtain ⟨rfl, -⟩ := List.cons.inj rest
      cases plain
    | cons first between =>
      obtain ⟨rfl, -⟩ := List.cons.inj rest
      exact announced before line between rfl plain

theorem settled_append_pair (lines : List ErrorLine) (number : Nat) (fault : Fault) :
    Settled (lines ++ [warning number fault, complaint number fault]) := by
  intro line last
  rw [List.getLast?_append_of_ne_nil _ (List.cons_ne_nil _ _)] at last
  cases last
  rfl

/-- Outcomes add to announced lines what leaves them announced. -/
theorem Announced.append_faultLines (announced : Announced outcomes lines) (settled : Settled lines)
    {added : List Script.Outcome} (inside : added ⊆ outcomes) :
    Announced outcomes (lines ++ added.flatMap faultLines) := by
  induction added generalizing lines with
  | nil => rwa [List.flatMap_nil, List.append_nil]
  | cons outcome added ih =>
    rw [List.cons_subset] at inside
    rw [List.flatMap_cons, ← List.append_assoc]
    obtain ⟨number, answer⟩ := outcome
    cases answer with
    | value v =>
      rw [faultLines, List.append_nil]
      exact ih announced settled inside.2
    | fault fault =>
      exact ih (announced.append_pair settled inside.1) (settled_append_pair lines number fault)
        inside.2

end Announced

end PrefixArith.CommandLine
