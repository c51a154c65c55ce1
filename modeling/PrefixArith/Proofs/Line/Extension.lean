import PrefixArith.Proofs.Line.Answer
import PrefixArith.Proofs.Token.Pieces

/-!
# More text on a line

A reading never looks behind the token that completes or refuses its term, and a space ends every
token before it. So a line that has been answered, other than by the lack of an operand, keeps its
answer whatever text is written behind it.
-/
namespace PrefixArith

/-- The token that is found first is found with more tokens behind it as well. -/
theorem Token.dropWhile_append_of_cons {tokens rest : List Token} {token : Token}
    (found : tokens.dropWhile isParen = token :: rest) (more : List Token) :
    (tokens ++ more).dropWhile isParen = token :: (rest ++ more) := by
  rw [List.dropWhile_append, found]
  rfl

namespace Term
open Token

/-- A reading that has not run out of tokens is the same with more of them, which it leaves. -/
theorem Reads.append {endOffset levels : Nat} {tokens rest : List Token}
    {result : Except ReadError Term} (reads : Reads endOffset levels tokens result rest)
    (decided : result ≠ .error (.missingOperand endOffset)) (later : Nat) (more : List Token) :
    Reads later levels (tokens ++ more) result (rest ++ more) := by
  have read (term : Term) :
      (.ok term : Except ReadError Term) ≠ .error (.missingOperand endOffset) := by
    intro same
    cases same
  induction reads with
  | missing found => exact absurd rfl decided
  | number found kind => exact .number (dropWhile_append_of_cons found more) kind
  | tooDeep found kind => exact .tooDeep (dropWhile_append_of_cons found more) kind
  | keyword found kind _ only =>
    exact .keyword (dropWhile_append_of_cons found more) kind (only (read _))
  | operation found kind _ _ first second =>
    exact .operation (dropWhile_append_of_cons found more) kind (first (read _)) (second (read _))
  | firstFails found kind _ first =>
    exact .firstFails (dropWhile_append_of_cons found more) kind (first decided)
  | secondFails found kind _ _ first second =>
    exact .secondFails (dropWhile_append_of_cons found more) kind (first (read _)) (second decided)

theorem ofTokens_append {tokens : List Token} {endOffset : Nat}
    (decided : ofTokens tokens endOffset ≠ .error (.missingOperand endOffset)) (later : Nat)
    (more : List Token) : ofTokens (tokens ++ more) later = ofTokens tokens endOffset := by
  have reads := (reads_readWithin endOffset nestingLimit tokens).append decided later more
  rw [ofTokens, read, reads.readWithin_eq]
  rfl

end Term

namespace Line

/-- A line with a token that is answered, and not by the lack of an operand, is answered the same
with any text behind it. -/
theorem answer?_append_space {mode : Overflow} {line : String} (tokens : Token.scan line ≠ [])
    (decided : ∀ offset, answer? mode line ≠ some (.fault (.reading (.missingOperand offset))))
    (more : String) : answer? mode (line ++ " " ++ more) = answer? mode line := by
  have decided' : Term.ofTokens (Token.scan line) line.utf8ByteSize ≠
      .error (.missingOperand line.utf8ByteSize) := by
    intro failure
    exact decided line.utf8ByteSize (answer?_of_unread tokens failure)
  have scanned := Token.scan_append_space line more
  have same : Term.ofTokens (Token.scan (line ++ " " ++ more)) (line ++ " " ++ more).utf8ByteSize =
      Term.ofTokens (Token.scan line) line.utf8ByteSize := by
    rw [scanned]
    exact Term.ofTokens_append decided' _ _
  cases outcome : Term.ofTokens (Token.scan line) line.utf8ByteSize with
  | ok term =>
    rw [outcome] at same
    rw [answer?_of_read same, answer?_of_read outcome]
  | error error =>
    rw [outcome] at same
    have tokens' : Token.scan (line ++ " " ++ more) ≠ [] := by
      rw [scanned]
      exact List.append_ne_nil_of_left_ne_nil tokens _
    rw [answer?_of_unread tokens' same, answer?_of_unread tokens outcome]

/-- A sum between separators stays what it is in front of digits, line feeds and stray
parentheses. -/
theorem answer?_append_space_of_sum :
    Token.scan "é(+ 2 3" ≠ [] ∧
      (∀ offset, answer? .checked "é(+ 2 3" ≠ some (.fault (.reading (.missingOperand offset)))) ∧
      answer? .checked ("é(+ 2 3" ++ " " ++ "4 -)\n(foo") = some (.value 5) := by
  have tokens : Token.scan "é(+ 2 3" ≠ [] := by decide +kernel
  have answer : answer? .checked "é(+ 2 3" = some (.value 5) := by decide +kernel
  have decided : ∀ offset,
      answer? .checked "é(+ 2 3" ≠ some (.fault (.reading (.missingOperand offset))) := by
    intro offset
    rw [answer]
    simp
  exact ⟨tokens, decided, (answer?_append_space tokens decided "4 -)\n(foo").trans answer⟩

end Line

end PrefixArith
