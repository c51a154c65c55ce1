import PrefixArith.CommandLine.Run

/-!
# The program

Connects the command line to the streams, the files, the environment and the entropy of the system.
-/
namespace PrefixArith

/-- The variable that holds the log filter. -/
def logVariable : String := "RUST_LOG"

/-- The reason of a failure of the file system. -/
def reasonOf : IO.Error → String
  | .noFileOrDirectory _ code details => s!"{details} (os error {code})"
  | .inappropriateType _ code details => s!"{details} (os error {code})"
  | .permissionDenied _ code details => s!"{details} (os error {code})"
  | error => toString error

/-- The files of the system. -/
def systemStorage : CommandLine.Storage IO where
  read? path := do
    try return some (← IO.FS.readBinFile path).data.toList
    catch _ => return none
  write path bytes := do
    try
      IO.FS.writeBinFile path ⟨bytes.toArray⟩
      return none
    catch error => return some (reasonOf error)

def logFilter : IO Log.Filter := do
  return ((← IO.getEnv logVariable).bind Log.Filter.ofText?).getD .default

end PrefixArith

open PrefixArith in
def main (arguments : List String) : IO UInt32 := do
  let key := Random.ChaCha.Key.ofBytes (← IO.getRandomBytes 32).data.toList
  let result ← CommandLine.run systemStorage ⟨key, Random.amplePatience⟩ arguments
  IO.print result.outputText
  IO.eprint (result.errorText (← logFilter))
  return UInt32.ofNat result.code
