import PrefixArith.Random.Source

/-!
# The seeded stream

The words of a seeded source are the ChaCha key stream with twelve rounds: blocks of sixteen 32-bit
words, numbered from zero, of which every two make a 64-bit word, the low half first. A 64-bit seed
is stretched to the eight words of a key by a permuted congruential generator.
-/
namespace PrefixArith.Random.ChaCha

abbrev Key := Vector UInt32 8
abbrev Block := Vector UInt32 16

def rotateLeft (x amount : UInt32) : UInt32 := (x <<< amount) ||| (x >>> (32 - amount))

def rotateRight (x amount : UInt32) : UInt32 := (x >>> amount) ||| (x <<< (32 - amount))

/-- Adds entry `b` to entry `a` and rotates their difference in entry `d`. -/
def mix (a b d : Fin 16) (amount : UInt32) (block : Block) : Block :=
  let sum := block[a] + block[b]
  (block.set a sum).set d (rotateLeft (block[d] ^^^ sum) amount)

def quarterRound (a b c d : Fin 16) (block : Block) : Block :=
  mix c d b 7 (mix a b d 8 (mix c d b 12 (mix a b d 16 block)))

/-- One round over the columns and one over the diagonals. -/
def doubleRound (block : Block) : Block :=
  let block := quarterRound 3 7 11 15 (quarterRound 2 6 10 14
    (quarterRound 1 5 9 13 (quarterRound 0 4 8 12 block)))
  quarterRound 3 4 9 14 (quarterRound 2 7 8 13
    (quarterRound 1 6 11 12 (quarterRound 0 5 10 15 block)))

/-- The constants, the key, the block number with its low half first, and a zero stream number. -/
def initial (key : Key) (counter : UInt64) : Block :=
  #v[0x61707865, 0x3320646e, 0x79622d32, 0x6b206574,
    key[0], key[1], key[2], key[3], key[4], key[5], key[6], key[7],
    counter.toUInt32, (counter >>> 32).toUInt32, 0, 0]

def block (key : Key) (counter : UInt64) : Block :=
  let start := initial key counter
  (Nat.repeat doubleRound 6 start).zipWith (· + ·) start

/-- The 64-bit word at position `n` of the stream. -/
def word (key : Key) (n : Nat) : UInt64 :=
  let words := block key (UInt64.ofNat (n / 8))
  have : n % 8 < 8 := Nat.mod_lt n (by decide)
  words[2 * (n % 8)].toUInt64 ||| (words[2 * (n % 8) + 1].toUInt64 <<< 32)

/-- One step of the generator that stretches seeds. -/
def seedStep (state : UInt64) : UInt64 := state * 6364136223846793005 + 11634580027462260723

/-- The key word of a state. -/
def seedWord (state : UInt64) : UInt32 :=
  rotateRight (((state >>> 18) ^^^ state) >>> 27).toUInt32 (state >>> 59).toUInt32

def Key.ofSeed (seed : UInt64) : Key :=
  Vector.ofFn fun i => seedWord (Nat.repeat seedStep (i + 1) seed)

/-- The key of 32 bytes, the low byte of each word first; missing bytes count as zero. -/
def Key.ofBytes (bytes : List UInt8) : Key :=
  Vector.ofFn fun i =>
    let byte (k : Nat) : UInt32 := (bytes.getD (4 * i + k) 0).toUInt32
    byte 0 ||| (byte 1 <<< 8) ||| (byte 2 <<< 16) ||| (byte 3 <<< 24)

/-- The stream of a key, from its start. -/
def source (key : Key) : Source := ⟨word key, 0⟩

/-- The stream of a seed. -/
def seeded (seed : UInt64) : Source := source (Key.ofSeed seed)

end PrefixArith.Random.ChaCha
