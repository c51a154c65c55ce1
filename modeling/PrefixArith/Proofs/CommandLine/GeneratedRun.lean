import PrefixArith.Proofs.CommandLine.Arguments
import PrefixArith.Proofs.CommandLine.FileRun
import PrefixArith.Proofs.Formula.Batch
import PrefixArith.Proofs.Text.Utf8

/-!
# Answering generated formulas

A run without a file writes a batch of formulas and then does what a run with that file does:
nothing is lost on the way through the bytes of the file, and every line that is read back is a
formula of the batch with an answer. Every seed, count and path can be asked for
(`Request.ofArguments_generating`).
-/
namespace PrefixArith.CommandLine

open PrefixArith.Random

section Run
variable {State : Type} {storage : Storage (StateM State)} {apart : State → String → String → Prop}
  {state after : State} {randomness : Randomness} {arguments : List String} {options : Options}
  {batch : String}

/-- The result of answering formulas that have been generated, which also notes that they have been
written. -/
def Result.written (result : Result) (options : Options) : Result :=
  { result with
    notices := .logged (.wrote options.count options.fuzzFile) :: result.notices }

theorem outputText_written (result : Result) (options : Options) :
    (result.written options).outputText = result.outputText := rfl

theorem errorText_written {filter : Log.Filter} (off : filter.level? = none) (result : Result)
    (options : Options) : (result.written options).errorText filter = result.errorText filter := by
  rw [Result.errorText, Result.shown, Result.written,
    List.filterMap_cons_none (shown?_logged off _)]
  rfl

/-- A batch is written to the path for it. If that succeeds, what is read there is answered. -/
theorem run_generate (lawful : storage.Lawful apart)
    (generated : options.batch? randomness = some batch)
    (state : State) :
    (generate storage randomness options).run state =
      match storage.writeTo state options.fuzzFile (Text.Utf8.encode batch) with
      | (none, after) =>
        ((storage.result after options.overflow options.fuzzFile).written options, after)
      | (some reason, after) =>
        (.failed 1 s!"Failed to write generated formulas to '{options.fuzzFile}': {reason}",
          after) := by
  rw [generate, generated, StateT.run_bind, Storage.writeTo]
  obtain ⟨answer, after⟩ := (storage.write options.fuzzFile (Text.Utf8.encode batch)).run state
  cases answer with
  | some reason => rfl
  | none =>
    change (answerFile storage options.overflow options.fuzzFile >>= fun result =>
      pure (result.written options)).run after = _
    rw [StateT.run_bind, run_answerFile lawful]
    rfl

theorem batch?_of_seed {seed : UInt64} {after : Source} (seeded : options.seed? = some seed)
    (drawn : (Formula.drawBatch {} randomness.patience options.count).run (ChaCha.seeded seed) =
      some (batch, after)) : options.batch? randomness = some batch := by
  rw [Options.batch?, Options.source, seeded, drawn, Option.map_some]

theorem runIn_unnamed (accepted : Request.ofArguments arguments = .ok (.run options))
    (unnamed : options.file? = none) :
    runIn storage state randomness arguments = (generate storage randomness options).run state := by
  rw [runIn_eq_runOptions accepted, runOptions, unnamed]

section Unnamed
variable (lawful : storage.Lawful apart)
  (accepted : Request.ofArguments arguments = .ok (.run options))
  (unnamed : options.file? = none) (generated : options.batch? randomness = some batch)
include lawful accepted unnamed generated

/-- What has been written is what is answered. -/
theorem runIn_of_written
    (written : storage.writeTo state options.fuzzFile (Text.Utf8.encode batch) = (none, after)) :
    runIn storage state randomness arguments =
      ((answerBytes options.overflow (Text.Utf8.encode batch)).written options, after) := by
  rw [runIn_unnamed accepted unnamed, run_generate lawful generated, written]
  dsimp only
  rw [Storage.result_of_content (lawful.written_reads written)]

theorem runIn_of_refused {reason : String}
    (refused : storage.writeTo state options.fuzzFile (Text.Utf8.encode batch) =
      (some reason, after)) :
    runIn storage state randomness arguments =
      (.failed 1 s!"Failed to write generated formulas to '{options.fuzzFile}': {reason}",
        state) := by
  rw [runIn_unnamed accepted unnamed, run_generate lawful generated, refused,
    lawful.refused_keeps refused]

end Unnamed

end Run

/-- Only an overflow gives an error line, and none is reported where results wrap around. -/
theorem errorLine_of_valueOrOverflow {mode : Overflow} {outcome : Script.Outcome}
    (answered : Formula.ValueOrOverflow mode outcome.answer) {text : String}
    (error : errorLine? outcome = some text) :
    mode = .checked ∧ ∃ offset,
      text = s!"Error on line {outcome.line}: {(EvalError.overflow offset).message}" := by
  obtain ⟨number, answer⟩ := outcome
  rcases answered with ⟨v, rfl⟩ | ⟨checked, offset, rfl⟩
  · cases error
  · exact ⟨checked, offset, (Option.some_inj.mp error).symm⟩

/-- Every formula of a batch has a line on one of the streams. On the error stream there are only
overflows, and nothing where results wrap around. -/
theorem streams_of_batch (mode : Overflow) {filter : Log.Filter} (off : filter.level? = none)
    {patience count : Nat} {source after : Source} {batch : String}
    (drawn : (Formula.drawBatch {} patience count).run source = some (batch, after)) :
    let result := answerBytes mode (Text.Utf8.encode batch)
    (Text.lines result.outputText).length + (Text.lines (result.errorText filter)).length = count ∧
      (mode = .wrapping → result.errorText filter = "") ∧
      ∀ text ∈ Text.lines (result.errorText filter), ∃ number offset : Nat,
        text = s!"Error on line {number}: {(EvalError.overflow offset).message}" := by
  obtain ⟨expressions, rfl, length, within⟩ := Formula.exists_sheet_of_default drawn
  obtain ⟨total, answered⟩ := Formula.outcomes_sheet within mode
  have overflows : ∀ text ∈ (Script.outcomes mode (Formula.sheet expressions)).filterMap errorLine?,
      mode = .checked ∧ ∃ number offset : Nat,
        text = s!"Error on line {number}: {(EvalError.overflow offset).message}" := by
    intro text mem
    obtain ⟨outcome, inside, error⟩ := List.mem_filterMap.mp mem
    obtain ⟨checked, offset, message⟩ :=
      errorLine_of_valueOrOverflow (answered outcome inside) error
    exact ⟨checked, outcome.line, offset, message⟩
  dsimp only
  rw [outputText_answerBytes, errorText_answerBytes off, Text.Utf8.decode_encode, lines_results,
    lines_errors, length_results_add_errors, total]
  refine ⟨length, ?_, fun text mem => (overflows text mem).2⟩
  rintro rfl
  have none : (Script.outcomes .wrapping (Formula.sheet expressions)).filterMap errorLine? = [] :=
    List.eq_nil_iff_forall_not_mem.mpr fun text mem => by cases (overflows text mem).1
  rw [none, stacked_nil]

/-- A run without a file leaves the formulas of its seed in the file at the path for them and
changes no other. It succeeds and says what a run with that file says, if the file holds these
formulas: for each of them one line, on the output stream where results wrap around, and otherwise
on the error stream if the formula overflows. If the path cannot be written, the run fails, shows no
result and changes nothing. -/
theorem generated_run_agrees_with_file_run {State : Type} {storage : Storage (StateM State)}
    {apart : State → String → String → Prop} (lawful : storage.Lawful apart)
    {arguments : List String} {options : Options} {seed : UInt64}
    (accepted : Request.ofArguments arguments = .ok (.run options)) (unnamed : options.file? = none)
    (seeded : options.seed? = some seed) {randomness : Randomness} {batch : String} {after : Source}
    (drawn : (Formula.drawBatch {} randomness.patience options.count).run (ChaCha.seeded seed) =
      some (batch, after))
    {filter : Log.Filter} (off : filter.level? = none) (state : State) :
    (∀ written, storage.writeTo state options.fuzzFile (Text.Utf8.encode batch) = (none, written) →
      ∃ result, runIn storage state randomness arguments = (result, written) ∧
        (storage.content? written options.fuzzFile = some (Text.Utf8.encode batch) ∧
          ∀ other, apart state options.fuzzFile other →
            storage.content? written other = storage.content? state other) ∧
        result.code = 0 ∧
        (∀ state' randomness' arguments' options',
          Request.ofArguments arguments' = .ok (.run options') →
          options'.file? = some options.fuzzFile → options'.checked = options.checked →
          storage.content? state' options.fuzzFile = some (Text.Utf8.encode batch) →
          ∃ result', runIn storage state' randomness' arguments' = (result', state') ∧
            result'.code = 0 ∧ result'.outputText = result.outputText ∧
            result'.errorText filter = result.errorText filter) ∧
        (options.checked = false →
          (Text.lines result.outputText).length = options.count ∧ result.errorText filter = "") ∧
        (options.checked = true →
          (Text.lines result.outputText).length + (Text.lines (result.errorText filter)).length =
              options.count ∧
            ∀ text ∈ Text.lines (result.errorText filter), ∃ number offset : Nat,
              text = s!"Error on line {number}: {(EvalError.overflow offset).message}")) ∧
    ∀ reason refused,
      storage.writeTo state options.fuzzFile (Text.Utf8.encode batch) = (some reason, refused) →
      ∃ result, runIn storage state randomness arguments = (result, state) ∧
        result.code = 1 ∧ result.outputText = "" := by
  have generated := batch?_of_seed seeded drawn
  constructor
  · intro written succeeds
    obtain ⟨total, silent, overflows⟩ := streams_of_batch options.overflow off drawn
    refine ⟨_, runIn_of_written lawful accepted unnamed generated succeeds,
      ⟨lawful.written_reads succeeds, fun other => lawful.others_keep succeeds⟩, rfl, ?_, ?_, ?_⟩
    · intro state' randomness' arguments' options' accepted' named same found
      have overflow : options'.overflow = options.overflow := by
        rw [Options.overflow, same, Options.overflow]
      refine ⟨_, runIn_file lawful accepted' named, ?_⟩
      rw [Storage.result_of_content found, overflow, outputText_written, errorText_written off]
      exact ⟨rfl, rfl, rfl⟩
    · intro unchecked
      have wrapping : options.overflow = .wrapping := by rw [Options.overflow, unchecked]; rfl
      rw [outputText_written, errorText_written off]
      have none : (Text.lines "").length = 0 := rfl
      rw [silent wrapping, none, Nat.add_zero] at total
      exact ⟨total, silent wrapping⟩
    · intro checked
      rw [outputText_written, errorText_written off]
      exact ⟨total, overflows⟩
  · intro reason refused fails
    exact ⟨_, runIn_of_refused lawful accepted unnamed generated fails, rfl, rfl⟩

/-- The formula of a seed replaces a file that could not be read as a text. -/
theorem generated_run_agrees_with_file_run_of_replaced :
    let arguments := generating 8 1 "./out.txt" false
    let options : Options := ⟨none, some 1, some "./out.txt", some 8, false⟩
    let directory : Directory := ⟨[("notes.txt", [0x61]), ("out.txt", [0xFF])]⟩
    let randomness : Randomness := ⟨ChaCha.Key.ofSeed 0, 1⟩
    let written := directory.put "out.txt" (Text.Utf8.encode "(simplify (- 9 2))\n")
    Request.ofArguments arguments = .ok (.run options) ∧
      (∃ after, (Formula.drawBatch {} 1 1).run (ChaCha.seeded 8) =
        some ("(simplify (- 9 2))\n", after)) ∧
      ∃ result, runIn Directory.storage directory randomness arguments = (result, written) ∧
        Directory.storage.content? written "notes.txt" = some [0x61] ∧ result.code = 0 ∧
        (Text.lines result.outputText).length = 1 ∧ result.errorText ⟨"", none⟩ = "" := by
  intro arguments options directory randomness written
  have accepted : Request.ofArguments arguments = .ok (.run options) :=
    Request.ofArguments_generating 8 (by decide) (by decide) false
  have text : ((Formula.drawBatch {} 1 1).run (ChaCha.seeded 8)).map Prod.fst =
      some "(simplify (- 9 2))\n" := by decide +kernel
  obtain ⟨⟨_, after⟩, drawn, rfl⟩ := Option.map_eq_some_iff.mp text
  have generated : (Formula.drawBatch {} randomness.patience options.count).run (ChaCha.seeded 8) =
      some ("(simplify (- 9 2))\n", after) := drawn
  have off : Log.Filter.level? ⟨"", none⟩ = none := rfl
  have leads : directory.nameOf options.fuzzFile = .ok "out.txt" := by decide +kernel
  have elsewhere : directory.nameOf "notes.txt" = .ok "notes.txt" := by decide +kernel
  have apart : directory.Apart options.fuzzFile "notes.txt" := by
    intro name own other
    rw [leads] at own
    rw [elsewhere, ← own] at other
    exact absurd other (by decide)
  have succeeds : Directory.storage.writeTo directory options.fuzzFile
      (Text.Utf8.encode "(simplify (- 9 2))\n") = (none, written) := by
    rw [Directory.writeTo_eq, leads]
  obtain ⟨result, ran, ⟨-, others⟩, code, -, unchecked, -⟩ :=
    (generated_run_agrees_with_file_run Directory.lawful_storage accepted rfl rfl generated off
      directory).1 written succeeds
  obtain ⟨output, silent⟩ := unchecked rfl
  refine ⟨accepted, ⟨after, drawn⟩, result, ran, (others "notes.txt" apart).trans ?_, code, output,
    silent⟩
  rw [Directory.content?_of_ok elsewhere]
  rfl

end PrefixArith.CommandLine
