import PrefixArith.Formula
import PrefixArith.Formula.Settings
import PrefixArith.Random.Uniform

/-!
# Random formulas

A formula is drawn from the outside in: the operator of an operation, then for each operand whether
it is an operation itself, and then that operation or a literal. Where no level is left, an operand
is a literal and nothing is drawn to decide it. `Choices` says how the single choices are made;
formulas are drawn by random words, and `patience` bounds the words of each uniform choice.
-/
namespace PrefixArith.Formula

open PrefixArith.Random

/-- The operators in the order in which a number from 0 to 2 selects them. -/
def operatorAt : Nat → Operator
  | 0 => .add
  | 1 => .subtract
  | _ => .multiply

/-- A way of choosing a number below a range, a word between two others, and whether an event
happens. -/
structure Choices where
  number : (range : Nat) → Draw Nat
  literal : (least greatest : Int64) → Draw Int64
  event : (probability : Binary64) → Draw Bool

/-- Choices by random words. -/
def Choices.uniform (patience : Nat) : Choices where
  number range := below range patience
  literal least greatest := between least greatest patience
  event := chance

/-! ## Formulas by any choices -/

section Choosing
variable (choices : Choices) (settings : Settings)

def operatorBy : Draw Operator := do
  return operatorAt (← choices.number 3)

def literalBy : Draw Expression := do
  return .literal (← choices.literal settings.least settings.greatest)

/-- An operation whose operands are both drawn by `drawOperand`, the left one first. -/
def applicationBy (drawOperand : Draw Expression) : Draw Expression := do
  let operator ← operatorBy choices
  let left ← drawOperand
  let right ← drawOperand
  return .operation operator left right

/-- An operation with room for `levels` more of them inside one another. -/
def operationBy : (levels : Nat) → Draw Expression
  | 0 => applicationBy choices (literalBy choices settings)
  | levels + 1 => applicationBy choices do
    if ← choices.event settings.nesting then operationBy levels
    else literalBy choices settings

/-- The text of a formula. -/
def drawBy : Draw String := do
  return text (← operationBy choices settings (settings.levels - 1))

end Choosing

/-! ## Formulas by random words -/

section Drawing
variable (settings : Settings) (patience : Nat)

def drawOperator : Draw Operator := operatorBy (.uniform patience)

def drawLiteral : Draw Expression := literalBy (.uniform patience) settings

/-- An operation whose operands are both drawn by `drawOperand`. -/
def drawWith (drawOperand : Draw Expression) : Draw Expression :=
  applicationBy (.uniform patience) drawOperand

/-- An operation with room for `levels` more of them inside one another. -/
def drawOperation (levels : Nat) : Draw Expression :=
  operationBy (.uniform patience) settings levels

/-- The expression of a random formula. -/
def drawExpression : Draw Expression := drawOperation settings patience (settings.levels - 1)

/-- The text of a random formula. -/
def draw : Draw String := drawBy (.uniform patience) settings

end Drawing

/-- The next `count` formulas. -/
def drawList (settings : Settings) (patience : Nat) : (count : Nat) → Draw (List String)
  | 0 => return []
  | count + 1 => do
    let first ← draw settings patience
    let others ← drawList settings patience count
    return first :: others

/-- The next `count` formulas as one text, each followed by a line feed. -/
def drawBatch (settings : Settings) (patience : Nat) : (count : Nat) → Draw String
  | 0 => return ""
  | count + 1 => do
    let first ← draw settings patience
    let others ← drawBatch settings patience count
    return first ++ "\n" ++ others

end PrefixArith.Formula
