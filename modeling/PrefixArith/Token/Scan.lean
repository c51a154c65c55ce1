import PrefixArith.Token

/-!
# Scanning a line

A line is read character by character. What a character does depends on itself and on a `Place`,
which is all that the scan keeps of the characters before it: whether the line or a parenthesis has
just been opened, and whether a run of digits or letters is going on. Only ASCII digits and letters
form runs; every character without a part of its own separates tokens and is dropped.
-/
namespace PrefixArith.Token

/-- Where a character stands, judged by the characters before it. -/
inductive Place where
  /-- At the start of the line or directly after an opening parenthesis. -/
  | opening
  /-- Inside a number, which further digits continue. -/
  | digits
  /-- Inside a keyword, which further letters continue. -/
  | letters
  | elsewhere
  deriving DecidableEq, Repr

/-- What a character does to the tokens of its line. -/
inductive Role where
  | starts (kind : Kind)
  | continues
  | separates
  deriving DecidableEq, Repr

/-- A minus sign subtracts at an opening and signs a number anywhere else. -/
def Place.role (place : Place) (c : Char) : Role :=
  if c = '(' ∨ c = ')' then .starts .paren
  else if c = '+' ∨ c = '*' then .starts .operator
  else if c = '-' then .starts (if place = .opening then .operator else .number)
  else if c.isDigit then (if place = .digits then .continues else .starts .number)
  else if c.isAlpha then (if place = .letters then .continues else .starts .keyword)
  else .separates

/-- The place of the character that follows `c`. -/
def Place.after (place : Place) (c : Char) : Place :=
  if c = '(' then .opening
  else if c = '-' then (if place = .opening then .elsewhere else .digits)
  else if c.isDigit then .digits
  else if c.isAlpha then .letters
  else .elsewhere

/-- The characters of `rest` that still belong to the token in progress. -/
def Place.run (place : Place) (rest : List Char) : List Char :=
  match place with
  | .digits => rest.takeWhile Char.isDigit
  | .letters => rest.takeWhile Char.isAlpha
  | _ => []

/-- The tokens that start among the given characters, the first of which stands at `offset`. -/
def scanFrom (place : Place) (offset : Nat) : List Char → List Token
  | [] => []
  | c :: rest =>
    let next := place.after c
    match place.role c with
    | .starts kind =>
      ⟨kind, String.ofList (c :: next.run rest), offset⟩ :: scanFrom next (offset + c.utf8Size) rest
    | .continues | .separates => scanFrom next (offset + c.utf8Size) rest

/-- The tokens of a line, in order. -/
def scan (line : String) : List Token := scanFrom .opening 0 line.toList

end PrefixArith.Token
