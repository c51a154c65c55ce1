import PrefixArith.Proofs.Decimal
import PrefixArith.Proofs.Line.Answer
import PrefixArith.Proofs.Term.Printing
import PrefixArith.Proofs.Term.TooDeep
import PrefixArith.Proofs.Token.Tokenization

/-!
# What faults name

A fault of a line names the end of the line or one of its tokens, and that token is the cause: an
application that nests too deep, or a part of the term that evaluation could not get past. Its text
is what the line holds at the offset named (`fault_names_cause`).
-/
namespace PrefixArith

/-- The fault names the token, and the token is one that causes such a fault. -/
def EvalError.Names (mode : Overflow) (token : Token) : EvalError → Prop
  | .unsupported text offset =>
    token.kind = .keyword ∧ token.text ≠ "simplify" ∧ text = token.text ∧ offset = token.offset
  | .badLiteral text offset =>
    token.kind = .number ∧ (token.text = "-" ∨ Decimal.Beyond token.text) ∧
      text = token.text ∧ offset = token.offset
  | .overflow offset => mode = .checked ∧ token.kind = .operator ∧ offset = token.offset

theorem EvalError.Names.offset_eq {mode : Overflow} {token : Token} {error : EvalError}
    (names : error.Names mode token) : error.offset = token.offset := by
  cases error with
  | unsupported text offset => exact names.2.2.2
  | badLiteral text offset => exact names.2.2.2
  | overflow offset => exact names.2.2

namespace Term
open Token (scan significant)

/-! ## Faults of one node -/

section Node
variable {mode : Overflow} {token : Token} {error : EvalError}

/-- A number of a line is refused if it is a lone minus sign or stands for no word. -/
theorem names_of_literalValue (kind : token.kind = .number) (spelled : token.Spelled)
    (failure : literalValue token.text token.offset = .error error) : error.Names mode token := by
  unfold literalValue at failure
  split at failure
  · cases failure
  · next refused =>
    cases failure
    refine ⟨kind, ?_, rfl, rfl⟩
    simp only [Token.Spelled, kind] at spelled
    obtain ⟨digits, inside, written | ⟨nonempty, written⟩⟩ := spelled
    · cases digits with
      | nil => exact .inl written
      | cons d digits =>
        exact .inr
          (Decimal.beyond_of_refused ⟨List.cons_ne_nil d digits, inside⟩ (.inr written) refused)
    · exact .inr (Decimal.beyond_of_refused ⟨nonempty, inside⟩ (.inl written) refused)

theorem names_of_keywordValue {a : Int64} (kind : token.kind = .keyword)
    (failure : keywordValue token a = .error error) : error.Names mode token := by
  unfold keywordValue at failure
  split at failure
  · cases failure
  · next other =>
    cases failure
    exact ⟨kind, other, rfl, rfl⟩

/-- Every operator of a line is known. -/
theorem ofText?_of_spelled (kind : token.kind = .operator) (spelled : token.Spelled) :
    ∃ operator, Operator.ofText? token.text = some operator := by
  simp only [Token.Spelled, kind] at spelled
  rcases spelled with plus | times | minus
  · exact ⟨.add, by rw [plus]; rfl⟩
  · exact ⟨.multiply, by rw [times]; rfl⟩
  · exact ⟨.subtract, by rw [minus]; rfl⟩

/-- An operation of a line fails by overflow only. -/
theorem names_of_operationValue {a b : Int64} (kind : token.kind = .operator)
    (spelled : token.Spelled) (failure : operationValue mode token a b = .error error) :
    error.Names mode token := by
  obtain ⟨operator, known⟩ := ofText?_of_spelled kind spelled
  simp only [operationValue, known] at failure
  split at failure
  · next overflows =>
    cases failure
    exact ⟨overflows.1, kind, rfl⟩
  · cases failure

end Node

/-! ## Faults of a term -/

/-- Evaluation fails on a token of the term that causes the fault. -/
theorem names_of_value {mode : Overflow} {term : Term} {error : EvalError} (formed : term.Formed)
    (spelled : ∀ token ∈ term.tokens, token.Spelled) (failure : term.value mode = .error error) :
    ∃ token ∈ term.tokens, error.Names mode token := by
  induction term with
  | literal token =>
    have own := spelled token (by simp)
    exact ⟨token, by simp, names_of_literalValue formed own failure⟩
  | keyword token operand ih =>
    obtain ⟨kind, formed⟩ := formed
    rw [tokens_keyword, List.forall_mem_cons] at spelled
    rw [tokens_keyword]
    rcases value_keyword_eq_error failure with only | ⟨a, -, here⟩
    · obtain ⟨found, mem, names⟩ := ih formed spelled.2 only
      exact ⟨found, List.mem_cons_of_mem token mem, names⟩
    · exact ⟨token, List.mem_cons_self, names_of_keywordValue kind here⟩
  | operation token left right ihl ihr =>
    obtain ⟨kind, formedLeft, formedRight⟩ := formed
    rw [tokens_operation, List.forall_mem_cons, List.forall_mem_append] at spelled
    rw [tokens_operation]
    rcases value_operation_eq_error failure with first | ⟨a, -, second | ⟨b, -, here⟩⟩
    · obtain ⟨found, mem, names⟩ := ihl formedLeft spelled.2.1 first
      exact ⟨found, List.mem_cons_of_mem token (List.mem_append_left _ mem), names⟩
    · obtain ⟨found, mem, names⟩ := ihr formedRight spelled.2.2 second
      exact ⟨found, List.mem_cons_of_mem token (List.mem_append_right _ mem), names⟩
    · exact ⟨token, List.mem_cons_self, names_of_operationValue kind spelled.1 here⟩

/-- No token of the term is among those that its reading leaves. -/
theorem notMem_rest_of_read {line : String} {term : Term} {endOffset : Nat}
    (success : ofTokens (scan line) endOffset = .ok term) {token : Token}
    (mem : token ∈ term.tokens) :
    token ∉ (read endOffset (scan line)).2 := by
  obtain ⟨formed, -, listed, -⟩ :=
    (reads_readWithin endOffset nestingLimit (scan line)).listed success
  have distinct : (significant (scan line)).Nodup := by
    have ascending := (Token.scan_ascending line).filter fun token => !token.isParen
    exact ascending.imp fun before same => by simp [same] at before
  intro left
  rw [listed] at distinct
  have solid : token ∈ significant (scan line) := by
    rw [listed]
    exact List.mem_append_left _ mem
  have left' : token ∈ significant (read endOffset (scan line)).2 :=
    Token.mem_significant.mpr ⟨left, (Token.mem_significant.mp solid).2⟩
  exact (List.nodup_append.mp distinct).2.2 token mem token left' rfl

end Term

namespace Line
open Token (scan)

/-- Every fault of a line names its cause. A reading fails at the end of the line, or at an
application among its tokens that nests too deep. An evaluation fails at a token of the term, the
only one at that offset and none of those left behind the term: a keyword other than `simplify`, a
number that is a lone minus sign or stands for no word, or, in checked mode only, an operator. -/
theorem fault_names_cause {mode : Overflow} {line : String} {fault : Fault}
    (answer : answer? mode line = some (.fault fault)) :
    match fault with
    | .reading (.unexpected _ _) => False
    | .reading (.missingOperand offset) => offset = line.utf8ByteSize
    | .reading (.tooDeep limit offset) =>
      limit = 1000 ∧ ∃ token ∈ scan line,
        (token.kind = .operator ∨ token.kind = .keyword) ∧ offset = token.offset
    | .evaluation error =>
      ∃ term, Term.ofTokens (scan line) line.utf8ByteSize = .ok term ∧
        ∃ token ∈ term.tokens, error.Names mode token ∧ token ∈ scan line ∧
          (∀ other ∈ scan line, other.offset = error.offset → other = token) ∧
          token ∉ (Term.read line.utf8ByteSize (scan line)).2 ∧
          ∃ before after, line = before ++ token.text ++ after ∧
            before.utf8ByteSize = error.offset := by
  rcases answer?_eq_fault answer with ⟨error, rfl, failure⟩ | ⟨error, term, rfl, success, failure⟩
  · have cause := Term.ofTokens_eq_error failure
    cases found : Token.firstTooDeep? Term.nestingLimit [0] (Token.significant (scan line)) with
    | none =>
      rw [found, Term.refusal] at cause
      subst cause
      rfl
    | some token =>
      rw [found, Term.refusal] at cause
      subst cause
      obtain ⟨mem, kind⟩ := Token.firstTooDeep?_mem found
      exact ⟨rfl, token, (Token.mem_significant.mp mem).1, kind, rfl⟩
  · obtain ⟨formed, -, listed⟩ := Term.ofTokens_eq_ok_iff.mp success
    obtain ⟨token, mem, names⟩ := Term.names_of_value formed (Term.spelled_of_read success) failure
    have scanned : token ∈ scan line := (Token.mem_significant.mp (listed.mem mem)).1
    refine ⟨term, success, token, mem, names, scanned, ?_, Term.notMem_rest_of_read success mem, ?_⟩
    · intro other mem' same
      exact Token.eq_of_offset_eq mem' scanned (same.trans names.offset_eq)
    · rw [names.offset_eq]
      exact (Token.scan_tokenization line).verbatim token scanned

/-- An unknown keyword behind a character of two bytes, in front of tokens that are passed over. -/
theorem fault_names_unknown_keyword :
    let line := "é (simplify (+ 2 (foo 3))) bar"
    answer? .checked line = some (.fault (.evaluation (.unsupported "foo" 19))) ∧
      ∃ token ∈ scan line, token.kind = .keyword ∧ token.text = "foo" ∧ token.offset = 19 ∧
        token ∉ (Term.read line.utf8ByteSize (scan line)).2 ∧
        ∃ before after, line = before ++ "foo" ++ after ∧ before.utf8ByteSize = 19 := by
  intro line
  have answer : answer? .checked line = some (.fault (.evaluation (.unsupported "foo" 19))) := by
    decide +kernel
  obtain ⟨term, -, token, -, names, scanned, -, kept, before, after, same, size⟩ :=
    fault_names_cause answer
  obtain ⟨kind, -, text, offset⟩ := names
  rw [← text] at same
  exact ⟨answer, token, scanned, kind, text.symm, offset.symm, kept, before, after, same, size⟩

end Line

end PrefixArith
