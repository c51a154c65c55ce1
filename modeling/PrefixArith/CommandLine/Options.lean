import PrefixArith.Decimal

/-!
# Command line options

The arguments are read from left to right, and the first fault or the first request for the version
or the help settles the rest. A long option has its value after an equals sign or in the next
argument, a short one also directly after its letter. A value in an argument of its own does not
start with a minus sign unless it is nothing else. After `--` every argument names a file.
-/
namespace PrefixArith.CommandLine

/-- The options of a run, each as far as it is given. -/
structure Options where
  file? : Option String := none
  count? : Option Nat := none
  fuzzFile? : Option String := none
  seed? : Option UInt64 := none
  checked : Bool := false
  deriving DecidableEq, Repr

/-- How many formulas to generate. -/
def Options.count (options : Options) : Nat := options.count?.getD 10

/-- Where generated formulas are written. -/
def Options.fuzzFile (options : Options) : String := options.fuzzFile?.getD "fuzz.txt"

/-- What the arguments ask for. -/
inductive Request where
  | run (options : Options)
  | version
  | help
  deriving DecidableEq, Repr

/-- Why the arguments ask for nothing. -/
inductive UsageError where
  | unknownOption (argument : String)
  | unexpectedValue (argument : String)
  | missingValue (argument : String)
  | badValue (value : String)
  | repeated (argument : String)
  | secondFile (argument : String)
  | emptyPath
  deriving DecidableEq, Repr

def UsageError.message : UsageError → String
  | .unknownOption argument => s!"Unknown option '{argument}'."
  | .unexpectedValue argument => s!"No value is expected in '{argument}'."
  | .missingValue argument => s!"A value is missing after '{argument}'."
  | .badValue value => s!"The value '{value}' is not a number in range."
  | .repeated argument => s!"The option in '{argument}' is given twice."
  | .secondFile argument => s!"There is a file already before '{argument}'."
  | .emptyPath => "A path is empty."

/-- The options with a value. -/
inductive Setting where
  | count | fuzzFile | seed
  deriving DecidableEq, Repr

/-- The options without a value. -/
inductive Switch where
  | checked | version | help
  deriving DecidableEq, Repr

/-- What one argument is, judged on its own. -/
inductive Argument where
  | setting (setting : Setting) (value? : Option String)
  | switch (switch : Switch)
  | file (path : String)
  | endOfOptions
  deriving DecidableEq, Repr

def settingOfName? : String → Option Setting
  | "count" => some .count
  | "fuzz-file" => some .fuzzFile
  | "seed" => some .seed
  | _ => none

def switchOfName? : String → Option Switch
  | "checked" => some .checked
  | "version" => some .version
  | "help" => some .help
  | _ => none

def settingOfLetter? : Char → Option Setting
  | 'c' => some .count
  | 's' => some .seed
  | _ => none

def switchOfLetter? : Char → Option Switch
  | 'V' => some .version
  | 'h' => some .help
  | _ => none

/-- A long option, the text of which after `--` is `text`. -/
def longArgument (argument : String) (text : List Char) : Except UsageError Argument :=
  let (name, rest) := text.span (· ≠ '=')
  let name := String.ofList name
  match settingOfName? name, switchOfName? name, rest with
  | some setting, _, [] => .ok (.setting setting none)
  | some setting, _, _ :: value => .ok (.setting setting (some (String.ofList value)))
  | none, some switch, [] => .ok (.switch switch)
  | none, some _, _ :: _ => .error (.unexpectedValue argument)
  | none, none, _ => .error (.unknownOption argument)

/-- The value that stands behind the letter of a short option. -/
def attachedValue? : List Char → Option String
  | [] => none
  | '=' :: value => some (String.ofList value)
  | value => some (String.ofList value)

/-- A short option. A switch acts before the letters that follow it are looked at. -/
def shortArgument (argument : String) (letter : Char) (rest : List Char) :
    Except UsageError Argument :=
  match settingOfLetter? letter, switchOfLetter? letter with
  | some setting, _ => .ok (.setting setting (attachedValue? rest))
  | none, some switch => .ok (.switch switch)
  | none, none => .error (.unknownOption argument)

def Argument.ofText (argument : String) : Except UsageError Argument :=
  match argument.toList with
  | ['-', '-'] => .ok .endOfOptions
  | '-' :: '-' :: text => longArgument argument text
  | '-' :: letter :: rest => shortArgument argument letter rest
  | _ => .ok (.file argument)

/-- Whether an argument can stand as the value of the option before it. -/
def isValue (argument : String) : Bool :=
  match argument.toList with
  | '-' :: _ :: _ => false
  | _ => true

def Options.setFile (options : Options) (path : String) : Except UsageError Options :=
  if options.file?.isSome then .error (.secondFile path)
  else if path = "" then .error .emptyPath
  else .ok { options with file? := some path }

def Options.set (options : Options) (argument : String) (setting : Setting) (value : String) :
    Except UsageError Options :=
  match setting with
  | .count =>
    if options.count?.isSome then .error (.repeated argument)
    else match Decimal.uint64OfText? value with
      | some count => .ok { options with count? := some count.toNat }
      | none => .error (.badValue value)
  | .fuzzFile =>
    if options.fuzzFile?.isSome then .error (.repeated argument)
    else if value = "" then .error .emptyPath
    else .ok { options with fuzzFile? := some value }
  | .seed =>
    if options.seed?.isSome then .error (.repeated argument)
    else match Decimal.uint64OfText? value with
      | some seed => .ok { options with seed? := some seed }
      | none => .error (.badValue value)

/-- Goes on with the remaining arguments after the given options. -/
def Request.ofArgumentsAfter (options : Options) : List String → Except UsageError Request
  | [] => .ok (.run options)
  | argument :: rest =>
    match Argument.ofText argument with
    | .error error => .error error
    | .ok .endOfOptions => (rest.foldlM Options.setFile options).map .run
    | .ok (.file path) =>
      match options.setFile path with
      | .error error => .error error
      | .ok options => ofArgumentsAfter options rest
    | .ok (.switch .version) => .ok .version
    | .ok (.switch .help) => .ok .help
    | .ok (.switch .checked) =>
      if options.checked then .error (.repeated argument)
      else ofArgumentsAfter { options with checked := true } rest
    | .ok (.setting setting (some value)) =>
      match options.set argument setting value with
      | .error error => .error error
      | .ok options => ofArgumentsAfter options rest
    | .ok (.setting setting none) =>
      match rest with
      | [] => .error (.missingValue argument)
      | value :: rest =>
        if isValue value then
          match options.set argument setting value with
          | .error error => .error error
          | .ok options => ofArgumentsAfter options rest
        else .error (.missingValue argument)

def Request.ofArguments (arguments : List String) : Except UsageError Request :=
  ofArgumentsAfter {} arguments

end PrefixArith.CommandLine
