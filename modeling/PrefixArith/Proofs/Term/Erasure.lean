import PrefixArith.Proofs.Term.Evaluation
import PrefixArith.Proofs.Term.Listing

/-!
# Terms without some of their keywords

A keyword may be taken out of a term, its operand standing in its place. The tokens of the term are
then those of the others, in the same order, and it nests no deeper. Where the keywords taken out
are all `simplify`, the value stays what it is, and so does the fault if there is none
(`value_erase`).
-/
namespace PrefixArith.Term

/-- The term without the chosen keywords. -/
def erase (chosen : Token → Bool) : Term → Term
  | .literal token => .literal token
  | .keyword token operand =>
    if chosen token then operand.erase chosen else .keyword token (operand.erase chosen)
  | .operation token left right =>
    .operation token (left.erase chosen) (right.erase chosen)

variable {chosen : Token → Bool} {token : Token} {operand term : Term}

theorem erase_keyword_of_chosen (here : chosen token = true) :
    (keyword token operand).erase chosen = operand.erase chosen := by
  rw [erase, if_pos here]

theorem erase_keyword_of_kept (here : chosen token = false) :
    (keyword token operand).erase chosen = .keyword token (operand.erase chosen) := by
  rw [erase, here, if_neg Bool.false_ne_true]

theorem formed_erase (formed : term.Formed) : (term.erase chosen).Formed := by
  induction term with
  | literal token => exact formed
  | keyword token operand ih =>
    obtain ⟨kind, formed⟩ := formed
    cases here : chosen token with
    | true =>
      rw [erase_keyword_of_chosen here]
      exact ih formed
    | false =>
      rw [erase_keyword_of_kept here]
      exact ⟨kind, ih formed⟩
  | operation token left right ihl ihr =>
    obtain ⟨kind, formedLeft, formedRight⟩ := formed
    exact ⟨kind, ihl formedLeft, ihr formedRight⟩

theorem nesting_erase_le (term : Term) : (term.erase chosen).nesting ≤ term.nesting := by
  induction term with
  | literal token => exact Nat.le_refl _
  | keyword token operand ih =>
    cases here : chosen token with
    | true =>
      rw [erase_keyword_of_chosen here]
      exact Nat.le_succ_of_le ih
    | false =>
      rw [erase_keyword_of_kept here]
      exact Nat.succ_le_succ ih
  | operation token left right ihl ihr =>
    rw [erase, nesting, nesting]
    omega

/-- If only keywords are chosen, the tokens are those that are not. -/
theorem tokens_erase (formed : term.Formed)
    (keywords : ∀ token ∈ term.tokens, chosen token = true → token.kind = .keyword) :
    (term.erase chosen).tokens = term.tokens.filter fun token => !chosen token := by
  have kept {token : Token} (other : token.kind ≠ .keyword)
      (only : chosen token = true → token.kind = .keyword) : chosen token = false := by
    rw [← Bool.not_eq_true]
    exact mt only other
  induction term with
  | literal token =>
    have kind : token.kind = .number := formed
    have own := kept (by simp [kind]) (keywords token (by simp))
    rw [erase, tokens_literal, List.filter_cons_of_pos (by simp [own]), List.filter_nil]
  | keyword token operand ih =>
    rw [tokens_keyword, List.forall_mem_cons] at keywords
    have inside := ih formed.2 keywords.2
    cases here : chosen token with
    | true =>
      rw [erase_keyword_of_chosen here, inside, tokens_keyword,
        List.filter_cons_of_neg (by simp [here])]
    | false =>
      rw [erase_keyword_of_kept here, tokens_keyword, inside, tokens_keyword,
        List.filter_cons_of_pos (by simp [here])]
  | operation token left right ihl ihr =>
    obtain ⟨kind, formedLeft, formedRight⟩ := formed
    rw [tokens_operation, List.forall_mem_cons, List.forall_mem_append] at keywords
    have own := kept (by simp [kind]) keywords.1
    rw [erase, tokens_operation, ihl formedLeft keywords.2.1, ihr formedRight keywords.2.2,
      tokens_operation, List.filter_cons_of_pos (by simp [own]), List.filter_append]

theorem value_erase
    (simplify : ∀ token ∈ term.tokens, chosen token = true → token.text = "simplify")
    (mode : Overflow) : (term.erase chosen).value mode = term.value mode := by
  induction term with
  | literal token => rfl
  | keyword token operand ih =>
    rw [tokens_keyword, List.forall_mem_cons] at simplify
    have inside := ih simplify.2
    cases here : chosen token with
    | true => rw [erase_keyword_of_chosen here, inside, value_simplify (simplify.1 here)]
    | false => rw [erase_keyword_of_kept here, value, value, inside]
  | operation token left right ihl ihr =>
    rw [tokens_operation, List.forall_mem_cons, List.forall_mem_append] at simplify
    rw [erase, value, value, ihl simplify.2.1, ihr simplify.2.2]

end PrefixArith.Term
