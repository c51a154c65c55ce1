import PrefixArith.Term
import PrefixArith.Fault
import PrefixArith.Operator

/-!
# The value of a term

Evaluation goes from the leaves to the root, the left operand before the right one, so the first
fault in that order is the one reported. What a node means is decided by the text of its token
alone.
-/
namespace PrefixArith.Term

/-- The value of a literal with the given text. -/
def literalValue (text : String) (offset : Nat) : Except EvalError Int64 :=
  match Decimal.int64OfText? text with
  | some value => .ok value
  | none => .error (.badLiteral text offset)

/-- The keyword `simplify` returns its operand; no other keyword has a meaning. -/
def keywordValue (token : Token) (operand : Int64) : Except EvalError Int64 :=
  if token.text = "simplify" then .ok operand
  else .error (.unsupported token.text token.offset)

/-- The value of an operation on two words. -/
def operationValue (mode : Overflow) (token : Token) (left right : Int64) :
    Except EvalError Int64 :=
  match Operator.ofText? token.text with
  | none => .error (.unsupported token.text token.offset)
  | some operator =>
    if mode = .checked ∧ operator.overflows left right then .error (.overflow token.offset)
    else .ok (operator.onWords left right)

def value (mode : Overflow) : Term → Except EvalError Int64
  | .literal token => literalValue token.text token.offset
  | .keyword token operand => do
    let operand ← operand.value mode
    keywordValue token operand
  | .operation token left right => do
    let left ← left.value mode
    let right ← right.value mode
    operationValue mode token left right

end PrefixArith.Term
