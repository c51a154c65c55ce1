import PrefixArith.Proofs.CommandLine.ErrorLines
import PrefixArith.Proofs.CommandLine.GeneratedRun
import PrefixArith.Proofs.Script.Events

/-!
# What a log adds to a run

A filter decides which records are shown and about nothing else, so two runs that differ in it have
the same streams and files once the lines of records are left out. In a run that succeeds the
records of the lines come ahead of the faults, and each fault has its warning directly before its
error line.
-/
namespace PrefixArith.CommandLine

open PrefixArith.Random
open Log (Filter Record)
open Text (Unbroken)

/-! ## What a run notes -/

/-- Where the formulas of a run are read. -/
def Options.path (options : Options) : String := options.file?.getD options.fuzzFile

/-- The record of a run that has generated its formulas. -/
def writtenNotices (options : Options) : List Notice :=
  match options.file? with
  | some _ => []
  | none => [.logged (.wrote options.count options.fuzzFile)]

section Run
variable {State : Type} {storage : Storage (StateM State)} {apart : State → String → String → Prop}
  {state after : State} {randomness : Randomness} {arguments : List String} {options : Options}
  {result : Result}

theorem run_generate_of_unsettled (unsettled : options.batch? randomness = none) (state : State) :
    (generate storage randomness options).run state =
      (.failed 1 "Failed to generate formulas: the random source did not settle.", state) := by
  rw [generate, unsettled]
  rfl

/-- A message that begins as no record does and quotes a path. -/
theorem plain_quoting (start : String) (long : 6 ≤ start.toList.length)
    (plain : Log.looksLogged start = false) (before : Unbroken start) (path ending : String) :
    Log.looksLogged (start ++ path ++ ending) = false ∧
      (Unbroken path → Unbroken ending → Unbroken (start ++ path ++ ending)) := by
  constructor
  · rw [String.append_assoc, Log.looksLogged_append long, plain]
  · intro unbroken behind
    rw [Text.unbroken_append, Text.unbroken_append]
    exact ⟨⟨before, unbroken⟩, behind⟩

/-- A run answers the bytes at its path or fails with one message. -/
theorem cases_of_runIn (lawful : storage.Lawful apart)
    (accepted : Request.ofArguments arguments = .ok (.run options))
    (ran : runIn storage state randomness arguments = (result, after)) :
    (∃ bytes, storage.content? after options.path = some bytes ∧ result.code = 0 ∧
      result.notices = writtenNotices options ++ (answerBytes options.overflow bytes).notices) ∨
    ∃ text, result.code = 1 ∧ result.notices = [.plain text] ∧ Log.looksLogged text = false ∧
      (storage.ReasonsUnbroken → Unbroken options.path → Unbroken text) := by
  cases named : options.file? with
  | some path =>
    have place : options.path = path := by rw [Options.path, named, Option.getD_some]
    rw [runIn_file lawful accepted named] at ran
    obtain ⟨rfl, rfl⟩ := Prod.mk.inj ran
    rw [place, writtenNotices, named]
    cases found : storage.content? state path with
    | some bytes =>
      left
      rw [Storage.result_of_content found]
      exact ⟨bytes, rfl, rfl, rfl⟩
    | none =>
      right
      rw [Storage.result, found]
      obtain ⟨plain, unbroken⟩ := plain_quoting "Failed to read the input file '" (by decide)
        (by decide) (by decide) path "'. Perhaps this file does not exist?"
      exact ⟨_, rfl, rfl, plain, fun _ whole => unbroken whole (by decide)⟩
  | none =>
    have place : options.path = options.fuzzFile := by rw [Options.path, named, Option.getD_none]
    rw [place, writtenNotices, named]
    cases generated : options.batch? randomness with
    | none =>
      right
      rw [runIn_unnamed accepted named, run_generate_of_unsettled generated] at ran
      obtain ⟨rfl, rfl⟩ := Prod.mk.inj ran
      exact ⟨_, rfl, rfl, by decide +kernel, fun _ _ => by decide +kernel⟩
    | some batch =>
      obtain ⟨answer, there, tried⟩ : ∃ answer there,
          storage.writeTo state options.fuzzFile (Text.Utf8.encode batch) = (answer, there) :=
        ⟨_, _, rfl⟩
      cases answer with
      | none =>
        left
        rw [runIn_of_written lawful accepted named generated tried] at ran
        obtain ⟨rfl, rfl⟩ := Prod.mk.inj ran
        exact ⟨_, lawful.written_reads tried, rfl, rfl⟩
      | some reason =>
        right
        rw [runIn_of_refused lawful accepted named generated tried] at ran
        obtain ⟨rfl, rfl⟩ := Prod.mk.inj ran
        refine ⟨_, rfl, rfl, ?_⟩
        obtain ⟨plain, unbroken⟩ := plain_quoting "Failed to write generated formulas to '"
          (by decide) (by decide) (by decide) options.fuzzFile ("': " ++ reason)
        rw [String.append_assoc]
        refine ⟨plain, fun reasons whole => unbroken whole ?_⟩
        exact Text.unbroken_append.mpr ⟨by decide, reasons tried⟩

theorem recognisable_writtenNotices (unbroken : Unbroken options.path) :
    ∀ notice ∈ writtenNotices options, notice.Recognisable := by
  unfold writtenNotices
  split
  · exact List.forall_mem_nil _
  · next unnamed =>
    rw [Options.path, unnamed] at unbroken
    rw [List.forall_mem_singleton]
    exact recognisable_logged (Record.unbroken_wrote options.count unbroken)

theorem recognisable_of_runIn (lawful : storage.Lawful apart) (reasons : storage.ReasonsUnbroken)
    (accepted : Request.ofArguments arguments = .ok (.run options))
    (ran : runIn storage state randomness arguments = (result, after))
    (unbroken : Unbroken options.path) : ∀ notice ∈ result.notices, notice.Recognisable := by
  rcases cases_of_runIn lawful accepted ran with
    ⟨bytes, -, -, notices⟩ | ⟨text, -, notices, plain, whole⟩
  · rw [notices, List.forall_mem_append]
    exact ⟨recognisable_writtenNotices unbroken, recognisable_answerBytes options.overflow bytes⟩
  · rw [notices, List.forall_mem_singleton]
    exact ⟨whole reasons unbroken, plain⟩

end Run

/-! ## The error stream of a run that succeeds -/

/-- The filter hides no warning of the program. -/
def ShowsWarnings (filter : Filter) : Prop :=
  ∀ record : Record, record.level = .warn → record.target = "smtcalc" → filter.shows record = true

/-- The notice is a record of the work, not of a fault. -/
def Notice.IsDebug : Notice → Prop
  | .logged record => record.level = .debug
  | .plain _ => False

section Success
variable {filter : Filter} {mode : Overflow} {source : String} {options : Options}

theorem errorLines_flatMap {α : Type} (items : List α) (noticed : α → List Notice) :
    errorLines filter (items.flatMap noticed) =
      items.flatMap fun item => errorLines filter (noticed item) := by
  rw [errorLines, List.filter_flatMap, List.flatMap_assoc]
  rfl

theorem errorLines_plain {text : String} (unbroken : Unbroken text) :
    errorLines filter [.plain text] = [⟨.plain text, text⟩] := by
  have own : (Notice.plain text).lines = [⟨.plain text, text⟩] := Notice.lines_of_unbroken unbroken
  rw [errorLines_singleton, own]
  rfl

theorem errorLines_logged {record : Record} (shown : filter.shows record = true)
    (unbroken : Unbroken record.text) :
    errorLines filter [.logged record] = [⟨.logged record, record.text⟩] := by
  have own : (Notice.logged record).lines = [⟨.logged record, record.text⟩] :=
    Notice.lines_of_unbroken unbroken
  rw [errorLines_singleton, Notice.visible, if_pos shown, own]

theorem errorLines_faultNotices (warned : ShowsWarnings filter) {outcome : Script.Outcome}
    (mem : outcome ∈ Script.outcomes mode source) :
    errorLines filter (faultNotices outcome) = faultLines outcome := by
  obtain ⟨number, answer⟩ := outcome
  cases answer with
  | value v => rfl
  | fault fault =>
    have message : Unbroken s!"Error on line {number}: {fault.message}" :=
      unbroken_of_errorLine mem rfl
    have shown : filter.shows (.failed number (fault.offset + 1)) = true := warned _ rfl rfl
    change errorLines filter ([.logged (.failed number (fault.offset + 1))] ++
      [.plain s!"Error on line {number}: {fault.message}"]) = _
    rw [errorLines_append, errorLines_logged shown (Record.unbroken_failed _ _),
      errorLines_plain message, Record.text_failed]
    rfl

theorem errorLines_outcomes (warned : ShowsWarnings filter) (mode : Overflow) (source : String) :
    errorLines filter ((Script.outcomes mode source).flatMap faultNotices) =
      (Script.outcomes mode source).flatMap faultLines := by
  rw [errorLines_flatMap]
  exact List.flatMap_congr fun outcome mem => errorLines_faultNotices warned mem

theorem isDebug_writtenNotices (options : Options) :
    ∀ notice ∈ writtenNotices options, notice.IsDebug := by
  unfold writtenNotices
  split
  · exact List.forall_mem_nil _
  · exact List.forall_mem_singleton.mpr rfl

theorem level_ofEvent (event : Line.Event) : (Record.ofEvent event).level = .debug := by
  cases event <;> rfl

theorem ErrorLine.of_isDebug {line : ErrorLine} (debug : line.notice.IsDebug) :
    line.notice.isLogged = true ∧ line.isWarning = false := by
  obtain ⟨notice, text⟩ := line
  cases notice with
  | plain message => exact debug.elim
  | logged record =>
    have level : record.level = .debug := debug
    exact ⟨rfl, by simp [isWarning, level]⟩

/-- Records of the work announce nothing and end with no warning. -/
theorem announced_of_isDebug {outcomes : List Script.Outcome} {notices : List Notice}
    (debug : ∀ notice ∈ notices, notice.IsDebug) :
    Announced outcomes (errorLines filter notices) ∧ Settled (errorLines filter notices) := by
  have own : ∀ line ∈ errorLines filter notices, line.notice.IsDebug := by
    intro line mem
    obtain ⟨notice, shown, inside⟩ := List.mem_flatMap.mp mem
    rw [Notice.notice_of_mem_lines inside]
    exact debug notice (List.mem_of_mem_filter shown)
  constructor
  · exact announced_of_logged fun line mem => (ErrorLine.of_isDebug (own line mem)).1
  · exact fun line last => (ErrorLine.of_isDebug (own line (List.mem_of_getLast? last))).2

theorem announced_errorLines (warned : ShowsWarnings filter) (options : Options)
    (bytes : List UInt8) :
    Announced (Script.outcomes options.overflow (Text.Utf8.decode bytes))
      (errorLines filter
        (writtenNotices options ++ (answerBytes options.overflow bytes).notices)) := by
  have debug : ∀ notice ∈ writtenNotices options ++
      (Script.events options.overflow (Text.Utf8.decode bytes)).map
        (fun event => Notice.logged (.ofEvent event)),
      notice.IsDebug := by
    rw [List.forall_mem_append]
    refine ⟨isDebug_writtenNotices options, fun notice mem => ?_⟩
    obtain ⟨event, -, rfl⟩ := List.mem_map.mp mem
    exact level_ofEvent event
  obtain ⟨announced, settled⟩ := announced_of_isDebug debug
  rw [answerBytes, ← List.append_assoc, errorLines_append, errorLines_outcomes warned]
  exact announced.append_faultLines settled (List.Subset.refl _)

/-! ## The whole log -/

/-- The filter for everything a run notes. -/
def debugFilter : Filter := ⟨"", some .debug⟩

theorem debugFilter_of_text (read : Filter.ofText? "debug" = some filter) :
    filter = debugFilter := by
  have known : Filter.ofText? "debug" = some debugFilter := by decide +kernel
  exact Option.some_inj.mp (read.symm.trans known)

theorem showsWarnings_debugFilter : ShowsWarnings debugFilter := by
  intro record level _
  rw [debugFilter, Filter.shows, level]
  rfl

theorem shows_debugFilter {record : Record} (level : record.level = .debug) :
    debugFilter.shows record = true := by
  rw [debugFilter, Filter.shows, level]
  rfl

/-- The lines that tell where generated formulas have been written. -/
def writtenTexts (options : Options) : List String :=
  match options.file? with
  | some _ => []
  | none =>
    Text.lines
      (s!"DEBUG smtcalc: wrote generated formulas count={options.count} path={options.fuzzFile}" ++
        "\n")

theorem errorLines_writtenNotices (options : Options) :
    (errorLines debugFilter (writtenNotices options)).map ErrorLine.text =
      writtenTexts options := by
  unfold writtenNotices writtenTexts
  split
  · rfl
  · rw [errorLines_singleton, Notice.visible, if_pos (shows_debugFilter rfl), map_text_lines,
      Notice.text, Record.text_wrote]

theorem errorLines_events (mode : Overflow) (source : String) :
    (errorLines debugFilter
        ((Script.events mode source).map fun event => .logged (.ofEvent event))).map
          ErrorLine.text =
      ((Text.lines source).flatMap (Line.records mode)).map Record.text := by
  rw [← Script.records_eq, Script.records]
  induction Script.events mode source with
  | nil => rfl
  | cons event events ih =>
    rw [List.map_cons, ← List.singleton_append, errorLines_append,
      errorLines_logged (shows_debugFilter (level_ofEvent event)) (Record.unbroken_ofEvent event),
      List.map_append, ih]
    rfl

theorem errorLines_debugFilter (options : Options) (bytes : List UInt8) :
    (errorLines debugFilter
        (writtenNotices options ++ (answerBytes options.overflow bytes).notices)).map
          ErrorLine.text =
      writtenTexts options ++
        ((Text.lines (Text.Utf8.decode bytes)).flatMap (Line.records options.overflow)).map
          Record.text ++
        ((Script.outcomes options.overflow (Text.Utf8.decode bytes)).flatMap faultLines).map
          ErrorLine.text := by
  rw [answerBytes, ← List.append_assoc, errorLines_append, errorLines_append, List.map_append,
    List.map_append, errorLines_writtenNotices, errorLines_events,
    errorLines_outcomes showsWarnings_debugFilter]

end Success

/-! ## Two runs -/

section Run
variable {State : Type} {storage : Storage (StateM State)} {apart : State → String → String → Prop}
  {state after : State} {randomness : Randomness} {arguments : List String} {options : Options}
  {result : Result}

/-- What a run leaves to see under a filter, the files included. -/
structure Observation (State : Type) where
  code : Nat
  output : String
  errors : List ErrorLine
  after : State
  deriving DecidableEq, Repr

def observe (storage : Storage (StateM State)) (filter : Filter) (state : State)
    (randomness : Randomness) (arguments : List String) : Observation State :=
  let (result, after) := runIn storage state randomness arguments
  ⟨result.code, result.outputText, errorLines filter result.notices, after⟩

/-- The lines of the error stream as they are read, without the notices. -/
def errorStream (storage : Storage (StateM State)) (filter : Filter) (state : State)
    (randomness : Randomness) (arguments : List String) : List String :=
  Text.lines ((runIn storage state randomness arguments).1.errorText filter)

def Observation.unlogged (observation : Observation State) : Observation State :=
  { observation with errors := CommandLine.unlogged observation.errors }

theorem observe_of_runIn (filter : Filter)
    (ran : runIn storage state randomness arguments = (result, after)) :
    observe storage filter state randomness arguments =
      ⟨result.code, result.outputText, errorLines filter result.notices, after⟩ := by
  rw [observe, ran]

theorem errorStream_of_runIn (filter : Filter)
    (ran : runIn storage state randomness arguments = (result, after)) :
    errorStream storage filter state randomness arguments =
      Text.lines (result.errorText filter) := by
  rw [errorStream, ran]

theorem unlogged_observe (f g : Filter) :
    (observe storage f state randomness arguments).unlogged =
      (observe storage g state randomness arguments).unlogged := by
  obtain ⟨result, after, ran⟩ :
    ∃ result after, runIn storage state randomness arguments = (result, after) := ⟨_, _, rfl⟩
  rw [observe_of_runIn f ran, observe_of_runIn g ran, Observation.unlogged, Observation.unlogged,
    unlogged_errorLines, unlogged_errorLines]

/-- A run that shows the version or the help has nothing to note. -/
theorem notices_of_shown {request : Request}
    (accepted : Request.ofArguments arguments = .ok request)
    (shown : ∀ options, request ≠ .run options)
    (ran : runIn storage state randomness arguments = (result, after)) :
    result.code = 0 ∧ result.notices = [] := by
  rw [runIn, run, accepted] at ran
  cases request with
  | run options => exact absurd rfl (shown options)
  | version | help =>
    obtain ⟨rfl, -⟩ := Prod.mk.inj ran
    exact ⟨rfl, rfl⟩

theorem withoutLog_stream (lawful : storage.Lawful apart) (reasons : storage.ReasonsUnbroken)
    (accepted : Request.ofArguments arguments = .ok (.run options))
    (ran : runIn storage state randomness arguments = (result, after))
    (unbroken : Unbroken options.path) (f g : Filter) :
    withoutLog (Text.lines (result.errorText f)) =
      withoutLog (Text.lines (result.errorText g)) := by
  have recognisable := recognisable_of_runIn lawful reasons accepted ran unbroken
  rw [← map_text_errorLines, ← map_text_errorLines, withoutLog_errorLines recognisable,
    withoutLog_errorLines recognisable, unlogged_errorLines, unlogged_errorLines]

theorem notices_of_success (lawful : storage.Lawful apart)
    (accepted : Request.ofArguments arguments = .ok (.run options))
    (ran : runIn storage state randomness arguments = (result, after)) (success : result.code = 0) :
    ∃ bytes, storage.content? after options.path = some bytes ∧
      result.notices = writtenNotices options ++ (answerBytes options.overflow bytes).notices := by
  rcases cases_of_runIn lawful accepted ran with ⟨bytes, found, -, notices⟩ | ⟨text, failure, -⟩
  · exact ⟨bytes, found, notices⟩
  · rw [success] at failure
    cases failure

end Run

/-- The log adds lines to the error stream and changes nothing else: under any two filters a run has
the same exit code, output, files and lines that are not of the log. If no path and no reason of the
storage has a line end in it, these are the lines that do not look like those of a log. A run that
only shows the version or the help has no line on the error stream. In a run that succeeds, an error
line has directly before it the warning with its number and the column of its fault, and no other
warning before that, as long as warnings are shown. With everything noted, the file of generated
formulas comes first, then the records of all lines in their order, and then the faults in
theirs. -/
theorem log_adds_log_lines_only {State : Type} {storage : Storage (StateM State)}
    {apart : State → String → String → Prop} (lawful : storage.Lawful apart)
    {arguments : List String} {request : Request}
    (accepted : Request.ofArguments arguments = .ok request) (state : State)
    (randomness : Randomness) :
    let run filter := observe storage filter state randomness arguments
    let stream filter := errorStream storage filter state randomness arguments
    (∀ f g, (run f).unlogged = (run g).unlogged) ∧
    (∀ filter, (run filter).errors.map ErrorLine.text = stream filter) ∧
    ((∀ options, request ≠ .run options) → ∀ filter, (run filter).code = 0 ∧ stream filter = []) ∧
    ∀ options, request = .run options →
      (storage.ReasonsUnbroken → Unbroken options.path →
        ∀ f g, withoutLog (stream f) = withoutLog (stream g)) ∧
      ∀ filter, (run filter).code = 0 → ∃ bytes,
        storage.content? (run filter).after options.path = some bytes ∧
        let source := Text.Utf8.decode bytes
        let outcomes := Script.outcomes options.overflow source
        (ShowsWarnings filter → Announced outcomes (run filter).errors) ∧
        (Filter.ofText? "debug" = some filter →
          stream filter = writtenTexts options ++
            ((Text.lines source).flatMap (Line.records options.overflow)).map Record.text ++
            (outcomes.flatMap faultLines).map ErrorLine.text) := by
  intro run stream
  obtain ⟨result, after, ran⟩ :
    ∃ result after, runIn storage state randomness arguments = (result, after) := ⟨_, _, rfl⟩
  have observed (filter : Filter) : run filter = _ := observe_of_runIn filter ran
  have streamed (filter : Filter) : stream filter = _ := errorStream_of_runIn filter ran
  refine ⟨unlogged_observe, fun filter => ?_, fun shown filter => ?_, ?_⟩
  · rw [observed, streamed]
    exact map_text_errorLines filter result
  · obtain ⟨code, notices⟩ := notices_of_shown accepted shown ran
    rw [observed, streamed, ← map_text_errorLines, notices]
    exact ⟨code, rfl⟩
  · rintro options rfl
    refine ⟨fun reasons unbroken f g => ?_, fun filter success => ?_⟩
    · rw [streamed, streamed]
      exact withoutLog_stream lawful reasons accepted ran unbroken f g
    · rw [observed] at success
      obtain ⟨bytes, found, notices⟩ := notices_of_success lawful accepted ran success
      rw [observed, streamed, ← map_text_errorLines, notices]
      refine ⟨bytes, found, fun warned => announced_errorLines warned options bytes, fun read => ?_⟩
      rw [debugFilter_of_text read]
      exact errorLines_debugFilter options bytes

/-- A file with a token behind a sum, a blank line, an unknown keyword and a sum that does not
fit. -/
theorem log_adds_log_lines_only_of_overflow :
    let arguments := ["--checked", "sums.txt"]
    let directory : Directory := ⟨[("sums.txt",
      Text.Utf8.encode "+ 1 2 3\n\r\n(foo 1)\n(+ 9223372036854775807 1)")]⟩
    let options : Options := { file? := some "sums.txt", checked := true }
    let randomness : Randomness := ⟨ChaCha.Key.ofSeed 0, 0⟩
    let stream filter := errorStream Directory.storage filter directory randomness arguments
    Request.ofArguments arguments = .ok (.run options) ∧
      withoutLog (stream ⟨"smtcalc::", some .debug⟩) = withoutLog (stream ⟨"", none⟩) ∧
      stream debugFilter =
        ["DEBUG smtcalc::interpreter::parser: ignoring tokens after a complete formula trailing=1",
          "DEBUG smtcalc: solved formula tokens=4 nodes=3 value=3",
          " WARN smtcalc: formula failed line=3 column=2",
          "Error on line 3: Unsupported operator 'foo' at column 2.",
          " WARN smtcalc: formula failed line=4 column=2",
          "Error on line 4: Integer overflow while computing the operation at column 2."] := by
  intro arguments directory options randomness stream
  have accepted : Request.ofArguments arguments = .ok (.run options) := by decide +kernel
  have success :
    (observe Directory.storage debugFilter directory randomness arguments).code = 0 := by
    decide +kernel
  have stored : Directory.storage.content?
      (observe Directory.storage debugFilter directory randomness arguments).after options.path =
        some (Text.Utf8.encode "+ 1 2 3\n\r\n(foo 1)\n(+ 9223372036854775807 1)") := by
    decide +kernel
  obtain ⟨-, -, -, runs⟩ :=
    log_adds_log_lines_only Directory.lawful_storage accepted directory randomness
  obtain ⟨same, succeeds⟩ := runs options rfl
  obtain ⟨bytes, found, -, all⟩ := succeeds debugFilter success
  cases found.symm.trans stored
  refine ⟨accepted, same Directory.reasonsUnbroken_storage (by decide +kernel) _ _,
    (all (by decide +kernel)).trans ?_⟩
  decide +kernel

end PrefixArith.CommandLine
