import PrefixArith.Formula
import PrefixArith.Proofs.Line.Answer
import PrefixArith.Proofs.Term.Printing
import PrefixArith.Proofs.Term.TooDeep

/-!
# Reading formulas

A formula is the written form of a term of the same shape (`text_term`), so it is read back as that
term as long as its levels and that of `simplify` stay within the limit. Evaluation then knows every
part of it, and only an overflow can keep it from a value.
-/
namespace PrefixArith

theorem Operator.ofText?_text (operator : Operator) :
    Operator.ofText? operator.text = some operator := by
  cases operator <;> rfl

namespace Formula

namespace Expression

/-- The term that the expression is the written form of. -/
def term : Expression → Term
  | .literal v => .literal ⟨.number, Decimal.ofInt64 v, 0⟩
  | .operation operator left right => .operation ⟨.operator, operator.text, 0⟩ left.term right.term

theorem text_term (e : Expression) : e.term.text = e.text := by
  induction e with
  | literal v => rfl
  | operation operator left right ihl ihr => rw [term, Term.text, ihl, ihr, text]

theorem formed_term (e : Expression) : e.term.Formed := by
  induction e with
  | literal v => rfl
  | operation operator left right ihl ihr => exact ⟨rfl, ihl, ihr⟩

theorem nesting_term (e : Expression) : e.term.nesting = e.levels := by
  induction e with
  | literal v => rfl
  | operation operator left right ihl ihr => rw [term, Term.nesting, ihl, ihr, levels]

theorem spelled_term (e : Expression) : ∀ token ∈ e.term.tokens, token.Spelled := by
  induction e with
  | literal v =>
    rw [term, Term.tokens_literal, List.forall_mem_singleton]
    obtain ⟨digits, ⟨nonempty, inside⟩, written | written⟩ := Decimal.ofInt64_eq_ofList v
    · exact ⟨digits, inside, .inr ⟨nonempty, written⟩⟩
    · exact ⟨digits, inside, .inl written⟩
  | operation operator left right ihl ihr =>
    rw [term, Term.tokens_operation, List.forall_mem_cons, List.forall_mem_append]
    exact ⟨Token.spelled_operator operator 0, ihl, ihr⟩

theorem supported_term (e : Expression) : e.term.Supported := by
  induction e with
  | literal v => exact ⟨v.toInt, Decimal.intOfChars?_ofInt v.toInt, Decimal.fits_toInt v⟩
  | operation operator left right ihl ihr =>
    refine ⟨?_, ihl, ihr⟩
    rw [Operator.ofText?_text]
    rfl

end Expression

/-- The term that the formula is the written form of. -/
def term (e : Expression) : Term := .keyword ⟨.keyword, "simplify", 0⟩ e.term

section Term
variable (e : Expression)

theorem text_term : (term e).text = text e := by
  rw [term, Term.text, e.text_term]
  rfl

theorem formed_term : (term e).Formed := ⟨rfl, e.formed_term⟩

theorem nesting_term : (term e).nesting = e.levels + 1 := by
  rw [term, Term.nesting, e.nesting_term]

theorem spelled_term : ∀ token ∈ (term e).tokens, token.Spelled := by
  rw [term, Term.tokens_keyword, List.forall_mem_cons]
  exact ⟨Token.spelled_simplify 0, e.spelled_term⟩

theorem supported_term : (term e).Supported := ⟨rfl, e.supported_term⟩

/-- The significant tokens of a formula are those of its term, at the places where they are
written. -/
theorem significant_scan_text :
    Token.significant (Token.scan (text e)) = ((term e).printedAt 0).tokens := by
  rw [← text_term e]
  exact Term.significant_scanFrom_text (formed_term e) (spelled_term e) (.inl rfl) (fun _ => id) 0

end Term

/-- Within the limit a formula is read as its term, at the places where it is written, and nothing
but parentheses is left. -/
theorem read_scan_formula {e : Expression} (within : e.levels + 1 ≤ Term.nestingLimit)
    (endOffset : Nat) :
    ∃ rest, Term.read endOffset (Token.scan (text e)) = (.ok ((term e).printedAt 0), rest) ∧
      Token.significant rest = [] := by
  rw [← nesting_term] at within
  have read := Term.read_text (formed_term e) within (spelled_term e) id endOffset
  rwa [text_term] at read

theorem ofTokens_scan_formula {e : Expression} (within : e.levels + 1 ≤ Term.nestingLimit)
    (endOffset : Nat) :
    Term.ofTokens (Token.scan (text e)) endOffset = .ok ((term e).printedAt 0) := by
  obtain ⟨rest, read, -⟩ := read_scan_formula within endOffset
  exact congrArg Prod.fst read

/-- Within the limit a formula has a value when results wrap around, and otherwise the same value or
an overflow. -/
theorem answer?_text {e : Expression} (within : e.levels + 1 ≤ Term.nestingLimit) :
    ∃ v, Line.answer? .wrapping (text e) = some (.value v) ∧
      (Line.answer? .checked (text e) = some (.value v) ∨
        ∃ offset, Line.answer? .checked (text e) =
          some (.fault (.evaluation (.overflow offset)))) := by
  have wrapped := ((term e).printedAt_eqUpToOffsets 0).value_eq_ok
    (Term.value_wrapping (supported_term e))
  refine ⟨Int64.ofInt (term e).exact, ?_, ?_⟩
  · rw [Line.answer?_of_read (ofTokens_scan_formula within _), wrapped, Line.Answer.ofValue]
  · rw [Line.answer?_of_read (ofTokens_scan_formula within _)]
    rcases ((term e).printedAt 0).value_modes with same | ⟨offset, overflow⟩
    · left
      rw [same, wrapped, Line.Answer.ofValue]
    · right
      exact ⟨offset, by rw [overflow, Line.Answer.ofValue]⟩

end Formula

end PrefixArith
