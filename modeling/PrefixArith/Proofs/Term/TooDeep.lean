import PrefixArith.Proofs.Term.Reading

/-!
# Terms that nest too deep

The token that a refused reading names is one of those that were read, and applies something
(`firstTooDeep?_mem`). It is found wherever a term reaches below the limit, and then no term is
read.
-/
namespace PrefixArith

namespace Token

theorem mem_of_mem_placed {slots : List Nat} {tokens : List Token} {entry : Token × Nat}
    (mem : entry ∈ placed slots tokens) : entry.1 ∈ tokens := by
  induction tokens generalizing slots with
  | nil => cases slots <;> simp [placed] at mem
  | cons token rest ih =>
    cases slots with
    | nil => simp [placed] at mem
    | cons around slots =>
      rw [placed, List.mem_cons] at mem
      rcases mem with rfl | later
      · exact List.mem_cons_self
      · exact List.mem_cons_of_mem token (ih later)

theorem firstTooDeep?_mem {limit : Nat} {slots : List Nat} {tokens : List Token} {token : Token}
    (found : firstTooDeep? limit slots tokens = some token) :
    token ∈ tokens ∧ (token.kind = .operator ∨ token.kind = .keyword) := by
  obtain ⟨entry, first, rfl⟩ := Option.map_eq_some_iff.mp found
  have deep := List.find?_some first
  simp only [TooDeep, decide_eq_true_eq] at deep
  exact ⟨mem_of_mem_placed (List.mem_of_find?_eq_some first), deep.1⟩

end Token

namespace Term
open Token

/-- Placing a term that reaches below the limit refuses one of its applications. -/
theorem exists_firstTooDeep? {term : Term} {limit around : Nat} (formed : term.Formed)
    (room : around ≤ limit) (deep : limit < around + term.nesting) (slots : List Nat)
    (rest : List Token) :
    ∃ token, firstTooDeep? limit (around :: slots) (term.tokens ++ rest) = some token := by
  induction term generalizing around slots rest with
  | literal token =>
    rw [nesting] at deep
    omega
  | keyword token operand ih =>
    obtain ⟨kind, formed⟩ := formed
    rw [nesting] at deep
    rw [tokens_keyword, List.cons_append]
    by_cases here : around = limit
    · exact ⟨token, firstTooDeep?_of_tooDeep (by simp [TooDeep, kind, here]) _ _⟩
    · have below : around < limit := by omega
      rw [firstTooDeep?_keyword kind below]
      exact ih formed below (by omega) _ _
  | operation token left right ihl ihr =>
    obtain ⟨kind, formedLeft, formedRight⟩ := formed
    rw [nesting] at deep
    rw [tokens_operation, List.cons_append, List.append_assoc]
    by_cases here : around = limit
    · exact ⟨token, firstTooDeep?_of_tooDeep (by simp [TooDeep, kind, here]) _ _⟩
    · have below : around < limit := by omega
      rw [firstTooDeep?_operator kind below]
      -- The first operand is refused if it reaches below the limit; if not, the second one does.
      by_cases first : limit < around + 1 + left.nesting
      · exact ihl formedLeft below first _ _
      · rw [firstTooDeep?_tokens formedLeft (Nat.le_of_not_lt first)]
        exact ihr formedRight below (by omega) _ _

/-- A reading fails as soon as an application is placed too deep. -/
theorem ofTokens_eq_tooDeep {tokens : List Token} {token : Token}
    (found : firstTooDeep? nestingLimit [0] (significant tokens) = some token) (endOffset : Nat) :
    ofTokens tokens endOffset = .error (.tooDeep nestingLimit token.offset) := by
  cases outcome : ofTokens tokens endOffset with
  | error error => rw [ofTokens_eq_error outcome, found, refusal]
  | ok term =>
    obtain ⟨formed, within, more, listed⟩ := ofTokens_eq_ok_iff.mp outcome
    have within' : 0 + term.nesting ≤ nestingLimit := by omega
    rw [← listed, firstTooDeep?_tokens formed within'] at found
    cases more <;> cases found

end Term

end PrefixArith
