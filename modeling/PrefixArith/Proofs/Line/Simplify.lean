import PrefixArith.Proofs.Line.Answer
import PrefixArith.Proofs.Term.Printing
import PrefixArith.Proofs.Term.TooDeep

/-!
# A line inside `simplify`

A line that is read as a term may be put into an application of `simplify`, together with whatever
else it holds. The term is then the operand, ten bytes later, and the answer is that of the line,
unless a minus sign at the start of the line subtracts there or the term uses up the levels that
there are (`answer?_simplify`).
-/
namespace PrefixArith

namespace Line
open Token (scan significant)

/-- The line as the operand of `simplify`. -/
def wrapped (line : String) : String := "(simplify " ++ line ++ ")"

/-- The keyword at the place that it has in a line that starts with its application. -/
def simplifyToken : Token := ⟨.keyword, "simplify", 1⟩

theorem significant_scan_wrapped {line : String} (unsigned : line.toList.head? ≠ some '-') :
    significant (scan (wrapped line)) =
      simplifyToken :: (significant (scan line)).map (Token.relocate (· + 10)) := by
  have spelled : simplifyToken.Spelled := Token.spelled_simplify 1
  have written : (wrapped line).toList =
      '(' :: (simplifyToken.text.toList ++ ' ' :: (line.toList ++ [')'])) := by
    simp [wrapped, simplifyToken]
  have size : 0 + simplifyToken.text.utf8ByteSize + 2 = 10 := rfl
  rw [scan, written, Token.significant_scanFrom_application spelled (.inr rfl), size,
    Token.scanFrom_text_append Token.stops_rparen, Token.significant_append,
    Token.significant_scanFrom_rparen, List.append_nil, Token.scanFrom_of_unsigned unsigned,
    Token.significant_map_relocate]
  rfl

/-- The application that a line makes as the operand of `simplify`. -/
def wrappedTerm (term : Term) : Term := .keyword simplifyToken (term.relocate (· + 10))

section Wrapped
variable {line : String} {term : Term}

/-- The term with its keyword heads the tokens of the line with it. -/
theorem tokens_wrapped_isPrefix (unsigned : line.toList.head? ≠ some '-')
    (listed : term.tokens <+: significant (scan line)) :
    (wrappedTerm term).tokens <+: significant (scan (wrapped line)) := by
  obtain ⟨more, listed⟩ := listed
  refine ⟨more.map (Token.relocate (· + 10)), ?_⟩
  rw [significant_scan_wrapped unsigned, ← listed, List.map_append, wrappedTerm,
    Term.tokens_keyword, Term.tokens_relocate, List.cons_append]

theorem formed_wrapped (formed : term.Formed) : (wrappedTerm term).Formed :=
  ⟨rfl, Term.formed_relocate.mpr formed⟩

theorem nesting_wrapped (term : Term) : (wrappedTerm term).nesting = term.nesting + 1 := by
  rw [wrappedTerm, Term.nesting, Term.nesting_relocate]

theorem value_wrapped (mode : Overflow) (term : Term) :
    (wrappedTerm term).value mode =
      (term.value mode).mapError (EvalError.relocate (· + 10)) := by
  rw [wrappedTerm, Term.value_simplify rfl, Term.value_relocate]

/-- Where a level is left, the term is read as the operand of `simplify`. -/
theorem ofTokens_wrapped (unsigned : line.toList.head? ≠ some '-')
    (success : Term.ofTokens (scan line) line.utf8ByteSize = .ok term)
    (room : term.nesting + 1 ≤ Term.nestingLimit) :
    Term.ofTokens (scan (wrapped line)) (wrapped line).utf8ByteSize =
      .ok (wrappedTerm term) := by
  obtain ⟨formed, -, listed⟩ := Term.ofTokens_eq_ok_iff.mp success
  refine Term.ofTokens_eq_ok_iff.mpr ⟨formed_wrapped formed, ?_, ?_⟩
  · rw [nesting_wrapped]
    exact room
  · exact tokens_wrapped_isPrefix unsigned listed

/-- A term that uses all levels is refused as the operand of `simplify`. -/
theorem ofTokens_wrapped_tooDeep (unsigned : line.toList.head? ≠ some '-')
    (success : Term.ofTokens (scan line) line.utf8ByteSize = .ok term)
    (full : Term.nestingLimit < term.nesting + 1) :
    ∃ offset, Term.ofTokens (scan (wrapped line)) (wrapped line).utf8ByteSize =
      .error (.tooDeep Term.nestingLimit offset) := by
  obtain ⟨formed, -, listed⟩ := Term.ofTokens_eq_ok_iff.mp success
  obtain ⟨more, listed⟩ := tokens_wrapped_isPrefix unsigned listed
  have deep : Term.nestingLimit < 0 + (wrappedTerm term).nesting := by
    rw [nesting_wrapped, Nat.zero_add]
    exact full
  obtain ⟨token, found⟩ :=
    Term.exists_firstTooDeep? (formed_wrapped formed) (Nat.zero_le _) deep [] more
  rw [listed] at found
  exact ⟨token.offset, Term.ofTokens_eq_tooDeep found _⟩

end Wrapped

/-- A line that does not start with a minus sign and is read as a term answers the same as the
operand of `simplify`, with the offset of a fault moved along. A term that uses all levels is
refused there. -/
theorem answer?_simplify {line : String} {term : Term} (unsigned : line.toList.head? ≠ some '-')
    (success : Term.ofTokens (scan line) line.utf8ByteSize = .ok term) :
    let text := "(simplify " ++ line ++ ")"
    (term.depth ≤ 1000 →
      Term.ofTokens (scan text) text.utf8ByteSize =
        .ok (.keyword ⟨.keyword, "simplify", 1⟩ (term.relocate (· + 10))) ∧
      ∀ mode, answer? mode line = some (.ofValue (term.value mode)) ∧
        answer? mode text =
          some (.ofValue ((term.value mode).mapError (EvalError.relocate (· + 10))))) ∧
    (term.depth = 1001 → ∀ mode, ∃ offset,
      answer? mode text = some (.fault (.reading (.tooDeep 1000 offset)))) := by
  intro text
  rw [Term.depth_eq_nesting]
  constructor
  · intro room
    have read : Term.ofTokens (scan text) text.utf8ByteSize = .ok (wrappedTerm term) :=
      ofTokens_wrapped unsigned success room
    refine ⟨read, fun mode => ⟨answer?_of_read success, ?_⟩⟩
    rw [answer?_of_read read, value_wrapped]
  · intro full mode
    have levels : Term.nestingLimit < term.nesting + 1 := by
      rw [full, Term.nestingLimit]
      decide
    obtain ⟨offset, failure⟩ := ofTokens_wrapped_tooDeep unsigned success levels
    exact ⟨offset, answer?_of_tooDeep failure⟩

/-- A number inside `count` applications of `simplify`. -/
def nested : (count : Nat) → Term
  | 0 => .literal ⟨.number, "1", 0⟩
  | count + 1 => .keyword simplifyToken (nested count)

theorem nested_formed (count : Nat) : (nested count).Formed := by
  induction count with
  | zero => rfl
  | succ count ih => exact ⟨rfl, ih⟩

theorem nested_nesting (count : Nat) : (nested count).nesting = count := by
  induction count with
  | zero => rfl
  | succ count ih => rw [nested, Term.nesting, ih]

theorem nested_spelled (count : Nat) : ∀ token ∈ (nested count).tokens, token.Spelled := by
  induction count with
  | zero =>
    rw [nested, Term.tokens_literal, List.forall_mem_singleton]
    exact ⟨['1'], List.forall_mem_singleton.mpr rfl, .inr ⟨List.cons_ne_nil _ _, rfl⟩⟩
  | succ count ih =>
    rw [nested, Term.tokens_keyword, List.forall_mem_cons]
    exact ⟨Token.spelled_simplify 1, ih⟩

theorem nested_unsigned (count : Nat) : (nested count).text.toList.head? ≠ some '-' := by
  cases count with
  | zero => decide
  | succ count => simp [nested, Term.text]

/-- Up to the limit, as many applications are read back as were written. -/
theorem ofTokens_nested {count : Nat} (within : count ≤ Term.nestingLimit) :
    ∃ term, Term.ofTokens (scan (nested count).text) (nested count).text.utf8ByteSize = .ok term ∧
      term.depth = count + 1 := by
  have signs : ¬ (nested count).StartsWithMinus := by
    cases count with
    | zero => simp [nested, Term.StartsWithMinus]
    | succ count => exact id
  have within' : (nested count).nesting ≤ Term.nestingLimit := by rwa [nested_nesting]
  have read := Term.ofTokens_text (nested_formed count) within' (nested_spelled count) signs
    (nested count).text.utf8ByteSize
  refine ⟨(nested count).printedAt 0, read, ?_⟩
  rw [Term.depth_eq_nesting, ((nested count).printedAt_eqUpToOffsets 0).nesting_eq, nested_nesting]

/-- The sum overflows ten bytes later, although a character of two bytes stands before it and a
parenthesis, a number and a sign are left behind it. A number inside 1000 applications is a term,
and inside one more it is none. -/
theorem answer?_simplify_of_sum :
    let line := "é+ 9223372036854775807 1) 5 -"
    (line.toList.head? ≠ some '-' ∧
      answer? .checked line = some (.fault (.evaluation (.overflow 2))) ∧
      answer? .checked ("(simplify " ++ line ++ ")") = some (.fault (.evaluation (.overflow 12)))) ∧
    ∃ line term, line.toList.head? ≠ some '-' ∧
      Term.ofTokens (scan line) line.utf8ByteSize = .ok term ∧ term.depth = 1001 ∧
      ∃ offset, answer? .checked ("(simplify " ++ line ++ ")") =
        some (.fault (.reading (.tooDeep 1000 offset))) := by
  intro line
  constructor
  · let sum : Term := .operation ⟨.operator, "+", 2⟩ (.literal ⟨.number, "9223372036854775807", 4⟩)
      (.literal ⟨.number, "1", 24⟩)
    have unsigned : line.toList.head? ≠ some '-' := by decide
    have listed : sum.tokens <+: significant (scan line) := by decide +kernel
    have success : Term.ofTokens (scan line) line.utf8ByteSize = .ok sum :=
      Term.ofTokens_eq_ok_iff.mpr ⟨⟨rfl, rfl, rfl⟩, by decide, listed⟩
    have overflow : sum.value .checked = .error (.overflow 2) := by rfl
    obtain ⟨-, answers⟩ := (answer?_simplify unsigned success).1 (by decide)
    obtain ⟨alone, inside⟩ := answers .checked
    rw [overflow] at alone inside
    exact ⟨unsigned, alone, inside⟩
  · obtain ⟨term, success, depth⟩ := ofTokens_nested (Nat.le_refl Term.nestingLimit)
    have unsigned := nested_unsigned Term.nestingLimit
    exact ⟨_, term, unsigned, success, depth, (answer?_simplify unsigned success).2 depth .checked⟩

/-- At the start of a line a minus sign subtracts, inside `simplify` it is a number without
digits. -/
example : answer? .wrapping "- 7 3" = some (.value 4) ∧
    answer? .wrapping "(simplify - 7 3)" = some (.fault (.evaluation (.badLiteral "-" 10))) := by
  decide +kernel

end Line

end PrefixArith
