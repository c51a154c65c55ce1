import PrefixArith.Proofs.CommandLine.Storage
import PrefixArith.Proofs.CommandLine.Streams

/-!
# Answering a file

A run that is given a file reads it and nothing else: all files are left as they are, and the
options that are for generated formulas have no part in the result (`runIn_file`). What the two
streams then hold is said line by line.
-/
namespace PrefixArith.CommandLine

open PrefixArith.Random

section Run
variable {State : Type} {storage : Storage (StateM State)} {apart : State → String → String → Prop}
  {state : State} {randomness : Randomness} {arguments : List String} {options : Options}
  {path : String}

/-- What a run that starts in a state of the files leaves, and the state after it. -/
def runIn (storage : Storage (StateM State)) (state : State) (randomness : Randomness)
    (arguments : List String) : Result × State :=
  (run storage randomness arguments).run state

/-- The result of answering the file at a path. -/
def Storage.result (storage : Storage (StateM State)) (state : State) (mode : Overflow)
    (path : String) : Result :=
  match storage.content? state path with
  | some bytes => answerBytes mode bytes
  | none =>
    .failed 1 s!"Failed to read the input file '{path}'. Perhaps this file does not exist?"

theorem Storage.result_of_content {bytes : List UInt8}
    (found : storage.content? state path = some bytes) (mode : Overflow) :
    storage.result state mode path = answerBytes mode bytes := by
  rw [result, found]

/-- Answering a file leaves the files as they are. -/
theorem run_answerFile (lawful : storage.Lawful apart) (state : State) (mode : Overflow)
    (path : String) :
    (answerFile storage mode path).run state = (storage.result state mode path, state) := by
  have read : (storage.read? path).run state = (storage.content? state path, state) :=
    lawful.readFrom_eq state path
  rw [answerFile, StateT.run_bind, read, Storage.result]
  cases storage.content? state path <;> rfl

theorem runIn_eq_runOptions (accepted : Request.ofArguments arguments = .ok (.run options)) :
    runIn storage state randomness arguments =
      (runOptions storage randomness options).run state := by
  rw [runIn, run, accepted]

theorem runIn_file (lawful : storage.Lawful apart)
    (accepted : Request.ofArguments arguments = .ok (.run options))
    (named : options.file? = some path) :
    runIn storage state randomness arguments =
      (storage.result state options.overflow path, state) := by
  rw [runIn_eq_runOptions accepted, runOptions, named]
  exact run_answerFile lawful state options.overflow path

end Run

/-- Whatever fails in it, a run with a file writes nothing, and the count, the seed and the path of
generated formulas have no effect. If the file cannot be read, that is all the run says. Otherwise
it succeeds; the output stream has a line for each value and the error stream one for each fault, in
the order of the lines. Each line of the file with a character that belongs to tokens adds one line
to one of the streams, and no other line adds any. -/
theorem file_run_reports_each_line_once {State : Type} {storage : Storage (StateM State)}
    {apart : State → String → String → Prop} (lawful : storage.Lawful apart)
    {arguments : List String} {options : Options} {path : String}
    (accepted : Request.ofArguments arguments = .ok (.run options))
    (named : options.file? = some path) {filter : Log.Filter} (off : filter.level? = none)
    (state : State) (randomness : Randomness) :
    ∃ result, runIn storage state randomness arguments = (result, state) ∧
      (∀ arguments' options' randomness', Request.ofArguments arguments' = .ok (.run options') →
        options'.file? = some path → options'.checked = options.checked →
        runIn storage state randomness' arguments' = (result, state)) ∧
      (storage.content? state path = none → result.code = 1 ∧ result.outputText = "" ∧
        result.errorText filter =
          s!"Failed to read the input file '{path}'. Perhaps this file does not exist?" ++ "\n") ∧
      ∀ bytes, storage.content? state path = some bytes →
        let source := Text.Utf8.decode bytes
        let mode := options.overflow
        let results := (Script.outcomes mode source).filterMap resultLine?
        let errors := (Script.outcomes mode source).filterMap errorLine?
        let numbered := (Text.lines source).zipIdx 1
        result.code = 0 ∧
        (result.outputText = stacked results ∧ result.errorText filter = stacked errors) ∧
        (Text.lines result.outputText = results ∧ Text.lines (result.errorText filter) = errors) ∧
        (results = numbered.flatMap (fun (line, number) => (additions mode line number).1) ∧
          errors = numbered.flatMap fun (line, number) => (additions mode line number).2) ∧
        ∀ line number,
          ((∃ c ∈ line.toList, Token.Recognised c) → ∃ text,
            additions mode line number = ([text], []) ∨ additions mode line number = ([], [text])) ∧
          ((¬ ∃ c ∈ line.toList, Token.Recognised c) → additions mode line number = ([], [])) := by
  refine ⟨storage.result state options.overflow path, runIn_file lawful accepted named, ?_, ?_, ?_⟩
  · intro arguments' options' randomness' accepted' named' same
    rw [runIn_file lawful accepted' named', Options.overflow, same, Options.overflow]
  · intro unreadable
    rw [Storage.result, unreadable]
    exact ⟨rfl, outputText_failed _ _, errorText_failed filter _ _⟩
  · intro bytes found source mode results errors numbered
    have shown := errorText_answerBytes off mode bytes
    rw [Storage.result_of_content found]
    refine ⟨rfl, ⟨outputText_answerBytes mode bytes, shown⟩, ⟨lines_results mode source, ?_⟩,
      filterMap_outcomes mode source, ?_⟩
    · rw [shown]
      exact lines_errors mode source
    · intro line number
      rw [← Token.scan_ne_nil_iff]
      refine ⟨fun tokens => additions_of_tokens tokens mode number, fun blank => ?_⟩
      exact additions_of_blank (not_ne_iff.mp blank) mode number

/-- A file with a formula, a blank line, a line that fails and one that is read by its first
term. -/
theorem file_run_reports_each_line_once_of_unsupported :
    let arguments := ["--checked", "sums.txt", "--count", "3"]
    let directory : Directory :=
      ⟨[("fuzz.txt", []), ("sums.txt", Text.Utf8.encode "(- 1 2)\n\r\n(foo 1)\r\n+ 3 4 5")]⟩
    let options : Options := { file? := some "sums.txt", count? := some 3, checked := true }
    let off : Log.Filter := ⟨"", none⟩
    Request.ofArguments arguments = .ok (.run options) ∧
      ∃ result,
        runIn Directory.storage directory ⟨ChaCha.Key.ofSeed 0, 0⟩ arguments = (result, directory) ∧
        result.code = 0 ∧ Text.lines result.outputText = ["(- 1)", "7"] ∧
        Text.lines (result.errorText off) =
          ["Error on line 3: Unsupported operator 'foo' at column 2."] := by
  intro arguments directory options off
  have accepted : Request.ofArguments arguments = .ok (.run options) := by decide +kernel
  have named : options.file? = some "sums.txt" := rfl
  have silent : off.level? = none := rfl
  obtain ⟨result, ran, -, -, read⟩ :=
    file_run_reports_each_line_once Directory.lawful_storage accepted named silent directory
      ⟨ChaCha.Key.ofSeed 0, 0⟩
  obtain ⟨code, -, ⟨output, errors⟩, -⟩ := read _ rfl
  refine ⟨accepted, result, ran, code, output.trans ?_, errors.trans ?_⟩ <;> decide +kernel

end PrefixArith.CommandLine
