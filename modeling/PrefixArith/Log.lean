/-!
# Log records

A record has a level, a target that names the part of the program it comes from, a message and named
values. A filter decides which records are shown.
-/
namespace PrefixArith.Log

inductive Level where
  | error | warn | info | debug | trace
  deriving DecidableEq, Repr

/-- More detailed levels rank higher. -/
def Level.rank : Level → Nat
  | .error => 0
  | .warn => 1
  | .info => 2
  | .debug => 3
  | .trace => 4

def Level.text : Level → String
  | .error => "ERROR"
  | .warn => "WARN"
  | .info => "INFO"
  | .debug => "DEBUG"
  | .trace => "TRACE"

structure Record where
  level : Level
  target : String
  message : String
  fields : List (String × String)
  deriving DecidableEq, Repr

/-- One line for a record: the level at the right of five columns, target, message and values. -/
def Record.text (record : Record) : String :=
  let level := record.level.text
  let margin := String.ofList (List.replicate (5 - level.length) ' ')
  let fields := record.fields.map fun (name, value) => " " ++ name ++ "=" ++ value
  margin ++ level ++ " " ++ record.target ++ ": " ++ record.message ++ String.join fields

/-- Shows the records whose target starts with `target`, up to the given level. -/
structure Filter where
  target : String
  level? : Option Level
  deriving DecidableEq, Repr

def Filter.shows (filter : Filter) (record : Record) : Bool :=
  match filter.level? with
  | none => false
  | some level =>
    record.level.rank ≤ level.rank && filter.target.toList.isPrefixOf record.target.toList

/-- Warnings and errors of every target. -/
def Filter.default : Filter := ⟨"", some .warn⟩

/-- The level that a word allows; `off` allows none. -/
def levelOfText? : String → Option (Option Level)
  | "off" => some none
  | "error" => some (some .error)
  | "warn" => some (some .warn)
  | "info" => some (some .info)
  | "debug" => some (some .debug)
  | "trace" => some (some .trace)
  | _ => none

/-- Reads a level for every target, or `target=level`. -/
def Filter.ofText? (text : String) : Option Filter :=
  match text.toList.span (· ≠ '=') with
  | (_, []) => (levelOfText? text).map fun level? => ⟨"", level?⟩
  | (target, _ :: level) =>
    (levelOfText? (String.ofList level)).map fun level? => ⟨String.ofList target, level?⟩

end PrefixArith.Log
