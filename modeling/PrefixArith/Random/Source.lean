/-!
# Sources of random words

A source is an endless stream of 64-bit words together with the number of words already taken. A
draw takes words from the front; it may also give up.
-/
namespace PrefixArith.Random

structure Source where
  word : Nat → UInt64
  taken : Nat

/-- A random choice: what it yields and the source it leaves, or `none` if it gives up. -/
abbrev Draw := StateT Source Option

def nextWord : Draw UInt64 := fun source =>
  some (source.word source.taken, { source with taken := source.taken + 1 })

/-- The step of the words that follow a list. It is odd, so its multiples run through all words. -/
def stride : UInt64 := 0x9E3779B97F4A7C15

/-- The given words, then the multiples of `stride`. -/
def Source.listed (words : List UInt64) : Source where
  word n := words.getD n (UInt64.ofNat (n - words.length + 1) * stride)
  taken := 0

end PrefixArith.Random
