import PrefixArith.Token

/-!
# Terms

A term is a literal, a keyword with one operand or an operation with two. Every node keeps the token
it was read from; its text and offset are what evaluation and faults refer to.
-/
namespace PrefixArith

inductive Term where
  | literal (token : Token)
  | keyword (token : Token) (operand : Term)
  | operation (token : Token) (left right : Term)
  deriving DecidableEq, Repr

namespace Term

/-- The token at the root. -/
def token : Term → Token
  | .literal token => token
  | .keyword token _ => token
  | .operation token _ _ => token

/-- The only operand of a keyword, the first one of an operation. -/
def left? : Term → Option Term
  | .literal _ => none
  | .keyword _ operand => some operand
  | .operation _ left _ => some left

/-- The second operand of an operation. -/
def right? : Term → Option Term
  | .operation _ _ right => some right
  | _ => none

/-- The number of nodes. -/
def size : Term → Nat
  | .literal _ => 1
  | .keyword _ operand => operand.size + 1
  | .operation _ left right => left.size + right.size + 1

/-- The number of nodes on a longest path from the root. -/
def depth : Term → Nat
  | .literal _ => 1
  | .keyword _ operand => operand.depth + 1
  | .operation _ left right => max left.depth right.depth + 1

/-- The written form: every application in parentheses, single spaces between its parts. -/
def text : Term → String
  | .literal token => token.text
  | .keyword token operand => "(" ++ token.text ++ " " ++ operand.text ++ ")"
  | .operation token left right =>
    "(" ++ token.text ++ " " ++ left.text ++ " " ++ right.text ++ ")"

/-- The subterms, each before its operands and the operands from left to right. -/
def subterms : Term → List Term
  | .literal token => [.literal token]
  | .keyword token operand => .keyword token operand :: operand.subterms
  | .operation token left right =>
    .operation token left right :: (left.subterms ++ right.subterms)

end Term

end PrefixArith
