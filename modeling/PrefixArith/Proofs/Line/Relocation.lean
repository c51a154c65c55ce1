import PrefixArith.Proofs.Line.Answer
import PrefixArith.Proofs.Term.Relocation

/-!
# Lines whose tokens are moved

The answer to a line depends on nothing but its tokens and the offset of its end. When these are
moved, the answer is moved along (`answerTo_relocate`), so two lines whose tokens differ only in
where they stand have the same value, or faults that differ only in the offset
(`answer?_eqUpToOffsets`).
-/
namespace PrefixArith

namespace Term
open Token (isParen)

/-- What a reading gives, at other places. -/
def relocateResult (f : Nat → Nat) : Except ReadError Term → Except ReadError Term
  | .ok term => .ok (term.relocate f)
  | .error error => .error (error.relocate f)

variable {f : Nat → Nat}

theorem found_relocate {tokens rest : List Token} {token : Token}
    (found : tokens.dropWhile isParen = token :: rest) :
    (tokens.map (Token.relocate f)).dropWhile isParen =
      token.relocate f :: rest.map (Token.relocate f) := by
  have kinds : isParen ∘ Token.relocate f = isParen := rfl
  rw [List.dropWhile_map, kinds, found, List.map_cons]

/-- Tokens that are moved are read alike. -/
theorem Reads.relocate {endOffset levels : Nat} {tokens rest : List Token}
    {result : Except ReadError Term} (reads : Reads endOffset levels tokens result rest) :
    Reads (f endOffset) levels (tokens.map (Token.relocate f)) (relocateResult f result)
      (rest.map (Token.relocate f)) := by
  induction reads with
  | missing found =>
    have kinds : isParen ∘ Token.relocate f = isParen := rfl
    exact .missing (by rw [List.dropWhile_map, kinds, found, List.map_nil])
  | number found kind => exact .number (found_relocate found) kind
  | tooDeep found kind => exact .tooDeep (found_relocate found) kind
  | keyword found kind _ only => exact .keyword (found_relocate found) kind only
  | operation found kind _ _ first second =>
    exact .operation (found_relocate found) kind first second
  | firstFails found kind _ first => exact .firstFails (found_relocate found) kind first
  | secondFails found kind _ _ first second =>
    exact .secondFails (found_relocate found) kind first second

theorem ofTokens_relocate (tokens : List Token) (endOffset : Nat) :
    ofTokens (tokens.map (Token.relocate f)) (f endOffset) =
      relocateResult f (ofTokens tokens endOffset) :=
  congrArg Prod.fst (reads_readWithin endOffset nestingLimit tokens).relocate.readWithin_eq

end Term

namespace Line
open Token (scan)

/-- The same answer with its fault at another place. -/
def Answer.relocate (f : Nat → Nat) : Answer → Answer
  | .value v => .value v
  | .fault reason => .fault (reason.relocate f)

/-- The answer to a line with the given tokens that ends at the given offset. -/
def answerTo (mode : Overflow) (tokens : List Token) (endOffset : Nat) : Option Answer :=
  if tokens = [] then none
  else match Term.ofTokens tokens endOffset with
    | .error error => some (.fault (.reading error))
    | .ok term => some (.ofValue (term.value mode))

theorem answer?_eq (mode : Overflow) (line : String) :
    answer? mode line = answerTo mode (scan line) line.utf8ByteSize := by
  unfold answerTo
  split
  · next blank => exact answer?_of_scan_nil blank
  · next tokens =>
    split
    · next failure => exact answer?_of_unread tokens failure
    · next success => exact answer?_of_read success

theorem ofValue_mapError (f : Nat → Nat) (result : Except EvalError Int64) :
    Answer.ofValue (result.mapError (EvalError.relocate f)) =
      (Answer.ofValue result).relocate f := by
  cases result <;> rfl

theorem answerTo_relocate (f : Nat → Nat) (mode : Overflow) (tokens : List Token)
    (endOffset : Nat) :
    answerTo mode (tokens.map (Token.relocate f)) (f endOffset) =
      (answerTo mode tokens endOffset).map (Answer.relocate f) := by
  by_cases blank : tokens = []
  · rw [blank]
    rfl
  · have blank' : tokens.map (Token.relocate f) ≠ [] := by simpa using blank
    rw [answerTo, answerTo, if_neg blank, if_neg blank', Term.ofTokens_relocate]
    cases Term.ofTokens tokens endOffset with
    | error error => rfl
    | ok term =>
      simp only [Term.relocateResult, Term.value_relocate, ofValue_mapError, Option.map_some]

/-- Lines whose tokens differ only in their offsets have the same answer but for the offset. -/
theorem answer?_eqUpToOffsets {line other : String}
    (same : (scan line).map (Token.relocate fun _ => 0) =
      (scan other).map (Token.relocate fun _ => 0))
    (mode : Overflow) :
    (answer? mode line).map (Answer.relocate fun _ => 0) =
      (answer? mode other).map (Answer.relocate fun _ => 0) := by
  rw [answer?_eq, answer?_eq, ← answerTo_relocate, ← answerTo_relocate, same]

end Line

end PrefixArith
