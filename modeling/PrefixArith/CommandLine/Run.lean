import PrefixArith.CommandLine.Options
import PrefixArith.CommandLine.Storage
import PrefixArith.Formula.Random
import PrefixArith.Log.Records
import PrefixArith.Random.ChaCha
import PrefixArith.Script
import PrefixArith.SolverText
import PrefixArith.Text.Utf8

/-!
# Running the program

A run answers the formulas of a file, one result line for each value and one error line for each
fault. Without a file it first generates formulas and writes them to one. All lines are answered
before any result is shown, so the events of all lines are noted ahead of the first fault.
-/
namespace PrefixArith.CommandLine

open PrefixArith.Random

/-- An entry of the error stream: a log record, which a filter may hide, or a plain message. -/
inductive Notice where
  | logged (record : Log.Record)
  | plain (text : String)
  deriving DecidableEq, Repr

/-- What a run leaves besides files: the exit code, the result lines and the notices. -/
structure Result where
  code : Nat
  output : List String
  notices : List Notice
  deriving DecidableEq, Repr

/-- The texts one below the other, each followed by a line feed. -/
def stacked (texts : List String) : String := String.join (texts.map fun text => text ++ "\n")

/-- The text of the output stream. -/
def Result.outputText (result : Result) : String := stacked result.output

def Notice.shown? (filter : Log.Filter) : Notice → Option String
  | .logged record => if filter.shows record then some record.text else none
  | .plain text => some text

/-- What a filter leaves for the error stream, an entry for each notice. A path in an entry may hold
line feeds of its own. -/
def Result.shown (filter : Log.Filter) (result : Result) : List String :=
  result.notices.filterMap (Notice.shown? filter)

/-- The text of the error stream. -/
def Result.errorText (filter : Log.Filter) (result : Result) : String :=
  stacked (result.shown filter)

/-- A run that ends with one message. -/
def Result.failed (code : Nat) (message : String) : Result := ⟨code, [], [.plain message]⟩

/-- What a run needs to draw formulas: the key of the random stream if no seed is given, and the
patience of every choice. -/
structure Randomness where
  key : ChaCha.Key
  patience : Nat

def Options.overflow (options : Options) : Overflow :=
  if options.checked then .checked else .wrapping

/-- The result line of an outcome. -/
def resultLine? (outcome : Script.Outcome) : Option String :=
  match outcome.answer with
  | .value v => some (SolverText.ofInt64 v)
  | .fault _ => none

/-- The warning and the error line of an outcome. -/
def faultNotices (outcome : Script.Outcome) : List Notice :=
  match outcome.answer with
  | .value _ => []
  | .fault fault =>
    [.logged (.failed outcome.line (column fault.offset)),
      .plain s!"Error on line {outcome.line}: {fault.message}"]

/-- Answers the formulas of a file. -/
def answerBytes (mode : Overflow) (bytes : List UInt8) : Result :=
  let source := Text.Utf8.decode bytes
  let outcomes := Script.outcomes mode source
  { code := 0
    output := outcomes.filterMap resultLine?
    notices := (Script.events mode source).map (fun event => .logged (.ofEvent event))
      ++ outcomes.flatMap faultNotices }

def answerFile {m : Type → Type} [Monad m] (storage : Storage m) (mode : Overflow)
    (path : String) : m Result := do
  match ← storage.read? path with
  | some bytes => return answerBytes mode bytes
  | none =>
    return .failed 1 s!"Failed to read the input file '{path}'. Perhaps this file does not exist?"

/-- The stream that the formulas of a run are drawn from. -/
def Options.source (options : Options) (randomness : Randomness) : Source :=
  match options.seed? with
  | some seed => ChaCha.seeded seed
  | none => ChaCha.source randomness.key

/-- The formulas that a run generates. -/
def Options.batch? (options : Options) (randomness : Randomness) : Option String :=
  ((Formula.drawBatch {} randomness.patience options.count).run (options.source randomness)).map
    Prod.fst

def generate {m : Type → Type} [Monad m] (storage : Storage m) (randomness : Randomness)
    (options : Options) : m Result := do
  let path := options.fuzzFile
  match options.batch? randomness with
  | none => return .failed 1 "Failed to generate formulas: the random source did not settle."
  | some batch =>
    match ← storage.write path (Text.Utf8.encode batch) with
    | some reason =>
      return .failed 1 s!"Failed to write generated formulas to '{path}': {reason}"
    | none =>
      let result ← answerFile storage options.overflow path
      return { result with
        notices := .logged (.wrote options.count path) :: result.notices }

def runOptions {m : Type → Type} [Monad m] (storage : Storage m) (randomness : Randomness)
    (options : Options) : m Result :=
  match options.file? with
  | some path => answerFile storage options.overflow path
  | none => generate storage randomness options

def helpLines : List String :=
  ["Evaluates integer arithmetic written before its operands, one formula per line.", "",
    "Usage: smtcalc [OPTIONS] [FILE]", "",
    "Without FILE, formulas are generated and evaluated.", "",
    "  -c, --count <COUNT>     number of formulas to generate [default: 10]",
    "      --fuzz-file <PATH>  where generated formulas are written [default: fuzz.txt]",
    "  -s, --seed <SEED>       seed of the generated formulas",
    "      --checked           report overflow as an error",
    "  -h, --help              show this text",
    "  -V, --version           show the version"]

/-- Does what the arguments ask for. -/
def run {m : Type → Type} [Monad m] (storage : Storage m) (randomness : Randomness)
    (arguments : List String) : m Result :=
  match Request.ofArguments arguments with
  | .error error => return .failed 2 error.message
  | .ok .version => return ⟨0, ["smtcalc 0.1.0"], []⟩
  | .ok .help => return ⟨0, helpLines, []⟩
  | .ok (.run options) => runOptions storage randomness options

end PrefixArith.CommandLine
