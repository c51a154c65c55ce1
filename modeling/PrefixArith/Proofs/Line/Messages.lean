import PrefixArith.Proofs.Line.Faults
import PrefixArith.Proofs.Text.Unbroken

/-!
# Messages on one line

The message of a fault quotes what the line holds, and that is the text of a token. Tokens have no
part of a line end in them, so neither has the message, whatever the line is (`unbroken_message`).
-/
namespace PrefixArith
open Text (Unbroken)

theorem Token.unbroken_text {line : String} {token : Token} (mem : token ∈ Token.scan line) :
    Unbroken token.text := by
  intro c inside
  have known := Token.recognised_of_mem_scan mem inside
  constructor <;>
  · rintro rfl
    rcases known with symbol | digit | letter
    · simp [Token.symbols] at symbol
    · simp at digit
    · simp at letter

theorem unbroken_column (offset : Nat) : Unbroken (toString (column offset)) :=
  Text.unbroken_ofNat (column offset)

/-- A message is unbroken if what it quotes is. -/
theorem EvalError.unbroken_message_of_quoted {error : EvalError}
    (quoted : ∀ text offset, error = .unsupported text offset ∨ error = .badLiteral text offset →
      Unbroken text) : Unbroken error.message := by
  unfold EvalError.message
  cases error with
  | unsupported text offset =>
    have own := quoted text offset (.inl rfl)
    rw [Text.unbroken_append, Text.unbroken_append, Text.unbroken_append, Text.unbroken_append]
    exact ⟨⟨⟨⟨by decide +kernel, own⟩, by decide +kernel⟩,
      unbroken_column offset⟩, by decide +kernel⟩
  | badLiteral text offset =>
    have own := quoted text offset (.inr rfl)
    rw [Text.unbroken_append, Text.unbroken_append, Text.unbroken_append, Text.unbroken_append]
    exact ⟨⟨⟨⟨by decide +kernel, own⟩, by decide +kernel⟩,
      unbroken_column offset⟩, by decide +kernel⟩
  | overflow offset =>
    rw [Text.unbroken_append, Text.unbroken_append]
    exact ⟨⟨by decide +kernel, unbroken_column offset⟩, by decide +kernel⟩

theorem ReadError.unbroken_message_of_refusal (endOffset : Nat) (found : Option Token) :
    Unbroken (Term.refusal endOffset found).message := by
  unfold ReadError.message
  cases found with
  | none =>
    simp only [Term.refusal]
    rw [Text.unbroken_append, Text.unbroken_append]
    exact ⟨⟨by decide +kernel, unbroken_column endOffset⟩, by decide +kernel⟩
  | some token =>
    simp only [Term.refusal]
    rw [Text.unbroken_append, Text.unbroken_append, Text.unbroken_append, Text.unbroken_append]
    exact ⟨⟨⟨⟨by decide +kernel, Text.unbroken_ofNat _⟩, by decide +kernel⟩,
      unbroken_column token.offset⟩, by decide +kernel⟩

namespace Line

/-- The message of a fault of a line is unbroken. -/
theorem unbroken_message {mode : Overflow} {line : String} {fault : Fault}
    (answer : answer? mode line = some (.fault fault)) : Unbroken fault.message := by
  rcases answer?_eq_fault answer with ⟨error, rfl, failure⟩ | ⟨error, term, rfl, success, failure⟩
  · rw [Fault.message, Term.ofTokens_eq_error failure]
    exact ReadError.unbroken_message_of_refusal _ _
  · obtain ⟨formed, -, listed⟩ := Term.ofTokens_eq_ok_iff.mp success
    obtain ⟨token, mem, names⟩ := Term.names_of_value formed (Term.spelled_of_read success) failure
    have scanned : token ∈ Token.scan line := (Token.mem_significant.mp (listed.mem mem)).1
    refine EvalError.unbroken_message_of_quoted fun text offset quoted => ?_
    have same : text = token.text := by
      rcases quoted with rfl | rfl
      · exact names.2.2.1
      · exact names.2.2.1
    rw [same]
    exact Token.unbroken_text scanned

end Line

end PrefixArith
