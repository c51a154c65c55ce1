import PrefixArith.Token.Scan
import PrefixArith.Term.Read
import PrefixArith.Term.Value

/-!
# Answering one line

A line holds one formula. It is scanned, read as a term and evaluated; tokens after the term are
passed over, which an event notes. A line without tokens has no answer.
-/
namespace PrefixArith.Line

/-- The value of a formula, or why there is none. -/
inductive Answer where
  | value (v : Int64)
  | fault (f : Fault)
  deriving DecidableEq, Repr

/-- What is worth noting on the way to an answer. -/
inductive Event where
  /-- Tokens other than parentheses follow the term. -/
  | trailing (count : Nat)
  /-- The term has a value. -/
  | solved (tokens nodes : Nat) (value : Int64)
  deriving DecidableEq, Repr

/-- An answer, if the line holds any token, and the events in order. -/
structure Report where
  answer? : Option Answer
  events : List Event
  deriving DecidableEq, Repr

/-- The event for the tokens left after a whole term, if there are any besides parentheses. -/
def trailingEvents (rest : List Token) : List Event :=
  match (rest.filter fun token => !token.isParen).length with
  | 0 => []
  | count + 1 => [.trailing (count + 1)]

def report (mode : Overflow) (line : String) : Report :=
  match Token.scan line with
  | [] => ⟨none, []⟩
  | first :: others =>
    let tokens := first :: others
    match Term.read line.utf8ByteSize tokens with
    | (.error error, _) => ⟨some (.fault (.reading error)), []⟩
    | (.ok term, rest) =>
      match term.value mode with
      | .error error => ⟨some (.fault (.evaluation error)), trailingEvents rest⟩
      | .ok v => ⟨some (.value v), trailingEvents rest ++ [.solved tokens.length term.size v]⟩

/-- The answer to a line, or `none` if it holds no token. -/
def answer? (mode : Overflow) (line : String) : Option Answer := (report mode line).answer?

end PrefixArith.Line
