/-!
# UTF-8 bytes

Bytes are decoded with a replacement character for each maximal part that is not UTF-8: a byte that
starts no character, or the beginning of a character that the next byte does not continue. That byte
is then taken as the start of something new, so a fault never reaches beyond it. In particular an
ASCII byte always stands for itself.
-/
namespace PrefixArith.Text.Utf8

/-- U+FFFD, which stands for bytes that are not UTF-8. -/
def replacement : Char := '\uFFFD'

/-- What the bytes so far ask of the next one. -/
inductive Pending where
  /-- The next byte starts a character. -/
  | ready
  /-- The next byte lies between `lower` and `upper` if it continues the character, and `more` bytes
  follow it; `bits` is what the character has of its number. -/
  | within (lower upper : UInt8) (more bits : Nat)
  deriving DecidableEq, Repr

/-- What the first byte of a longer character asks of the next byte. Overlong forms, surrogates and
numbers past the last character are ruled out here. -/
def opened? (b : UInt8) : Option Pending :=
  if 0xC2 ≤ b ∧ b ≤ 0xDF then some (.within 0x80 0xBF 0 (b.toNat - 0xC0))
  else if b = 0xE0 then some (.within 0xA0 0xBF 1 0x0)
  else if b = 0xED then some (.within 0x80 0x9F 1 0xD)
  else if 0xE1 ≤ b ∧ b ≤ 0xEF then some (.within 0x80 0xBF 1 (b.toNat - 0xE0))
  else if b = 0xF0 then some (.within 0x90 0xBF 2 0x0)
  else if 0xF1 ≤ b ∧ b ≤ 0xF3 then some (.within 0x80 0xBF 2 (b.toNat - 0xF0))
  else if b = 0xF4 then some (.within 0x80 0x8F 2 0x4)
  else none

/-- The text of the bytes so far, without the character that is pending. -/
structure Decoder where
  text : String
  pending : Pending
  deriving DecidableEq, Repr

/-- Takes a byte that does not continue a character. -/
def start (text : String) (b : UInt8) : Decoder :=
  if b < 0x80 then ⟨text.push (Char.ofNat b.toNat), .ready⟩
  else match opened? b with
    | some pending => ⟨text, pending⟩
    | none => ⟨text.push replacement, .ready⟩

def Decoder.feed (decoder : Decoder) (b : UInt8) : Decoder :=
  match decoder.pending with
  | .ready => start decoder.text b
  | .within lower upper more bits =>
    if lower ≤ b ∧ b ≤ upper then
      let bits := bits * 64 + (b.toNat - 0x80)
      match more with
      | 0 => ⟨decoder.text.push (Char.ofNat bits), .ready⟩
      | more + 1 => ⟨decoder.text, .within 0x80 0xBF more bits⟩
    else start (decoder.text.push replacement) b

/-- The text once no more bytes come. -/
def Decoder.finish (decoder : Decoder) : String :=
  match decoder.pending with
  | .ready => decoder.text
  | .within .. => decoder.text.push replacement

def decode (bytes : List UInt8) : String := (bytes.foldl Decoder.feed ⟨"", .ready⟩).finish

def encode (text : String) : List UInt8 := text.toList.flatMap String.utf8EncodeChar

end PrefixArith.Text.Utf8
