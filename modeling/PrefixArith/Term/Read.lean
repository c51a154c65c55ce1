import PrefixArith.Term
import PrefixArith.Fault

/-!
# Reading terms

A term is read from the front of a token list. Arity alone decides where it ends: an operator takes
two terms, a keyword one, a number none. Parentheses are passed over wherever a term may start,
whether or not they pair up. Reading also gives the tokens that it left, after a failure as well, so
that a reader can go on from there.
-/
namespace PrefixArith.Term

/-- How many applications may stand around one another. -/
def nestingLimit : Nat := 1000

/-- Reads one term that has room for `levels` more nested applications. `endOffset` is the place to
name when the tokens run out. Since parentheses are passed over first, every token found can start a
term, and the case of a parenthesis never applies. -/
def readWithin (endOffset : Nat) (levels : Nat) (tokens : List Token) :
    Except ReadError Term × List Token :=
  match tokens.dropWhile Token.isParen with
  | [] => (.error (.missingOperand endOffset), [])
  | token :: rest =>
    match token.kind, levels with
    | .number, _ => (.ok (.literal token), rest)
    | .paren, _ => (.error (.unexpected token.text token.offset), rest)
    | .keyword, 0 => (.error (.tooDeep nestingLimit token.offset), rest)
    | .operator, 0 => (.error (.tooDeep nestingLimit token.offset), rest)
    | .keyword, levels + 1 =>
      match readWithin endOffset levels rest with
      | (.error error, rest) => (.error error, rest)
      | (.ok operand, rest) => (.ok (.keyword token operand), rest)
    | .operator, levels + 1 =>
      match readWithin endOffset levels rest with
      | (.error error, rest) => (.error error, rest)
      | (.ok left, rest) =>
        match readWithin endOffset levels rest with
        | (.error error, rest) => (.error error, rest)
        | (.ok right, rest) => (.ok (.operation token left right), rest)

/-- Reads one term from the front of the tokens. -/
def read (endOffset : Nat) (tokens : List Token) : Except ReadError Term × List Token :=
  readWithin endOffset nestingLimit tokens

/-- The term at the front of the tokens; what follows it is not looked at. -/
def ofTokens (tokens : List Token) (endOffset : Nat) : Except ReadError Term :=
  (read endOffset tokens).1

/-- Reads `count` times in a row, each time from where the reading before it stopped. -/
def readRepeatedly (endOffset : Nat) (tokens : List Token) :
    Nat → List (Except ReadError Term × List Token)
  | 0 => []
  | count + 1 =>
    let step := read endOffset tokens
    step :: readRepeatedly endOffset step.2 count

end PrefixArith.Term
