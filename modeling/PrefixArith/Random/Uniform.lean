import PrefixArith.Random.Source
import PrefixArith.Binary64

/-!
# Uniform choices

A choice among `range` numbers multiplies a word by the range. The high half of the product is the
number; the low half tells whether the word is one of those that make all numbers equally likely,
and other words are rejected. Rejections have no bound, so a draw has a `patience`: the number of
words it looks at before it gives up.
-/
namespace PrefixArith.Random

/-- A patience that no choice exhausts on a source whose words run through all words again and again
after fewer than `UInt64.size` others: some word among them is 0, which is never rejected. -/
def amplePatience : Nat := 2 * UInt64.size

/-- The greatest low half that is accepted. -/
def zone (range : Nat) : Nat := range <<< (63 - range.log2) - 1

/-- The number that a word selects, if it is not rejected. -/
def selected? (range : Nat) (word : UInt64) : Option Nat :=
  let product := word.toNat * range
  if product % UInt64.size ≤ zone range then some (product / UInt64.size) else none

/-- A number below `range`, which is positive and less than `UInt64.size`. -/
def below (range : Nat) : (patience : Nat) → Draw Nat
  | 0 => failure
  | patience + 1 => do
    match selected? range (← nextWord) with
    | some n => return n
    | none => below range patience

/-- A word from `least` to `greatest`; the range of all words takes a word as it comes. -/
def between (least greatest : Int64) (patience : Nat) : Draw Int64 := do
  let range := (greatest.toInt - least.toInt + 1).toNat
  if range = UInt64.size then return (← nextWord).toInt64
  else
    let n ← below range patience
    return Int64.ofInt (least.toInt + n)

/-- True with the given probability. Only a sure event takes no word. -/
def chance (probability : Binary64) : Draw Bool := do
  if probability.isOne then return true
  else
    let word ← nextWord
    return word.toNat < probability.scaled

end PrefixArith.Random
