import PrefixArith.Proofs.Decimal
import PrefixArith.Proofs.Term.Evaluation
import PrefixArith.Proofs.Term.Paths

/-!
# Constant folding

A subterm with a value may be replaced by the decimal text of that value. What a node does depends
on the values of its operands alone, so the whole term keeps its value, or the fault that it reports
(`folding_keeps_value`).
-/
namespace PrefixArith.Term

variable {mode : Overflow} {given : Path → Option Token} {term : Term} {token : Token}

/-- What is given at a path is a literal with the value of the subterm there, written in decimal. -/
def Folds (mode : Overflow) (term : Term) (given : Path → Option Token) : Prop :=
  ∀ path token, given path = some token →
    ∃ node v, term.at? path = some node ∧ node.value mode = .ok v ∧
      token.kind = .number ∧ token.text = Decimal.ofInt64 v

/-- Of the paths at which a literal is given none leads on from another. -/
def Disjoint (given : Path → Option Token) : Prop :=
  ∀ path other, (given path).isSome → (given other).isSome → path <+: other → path = other

/-- What folds in a term folds in its operands. -/
theorem Folds.operand {operand : Term} (folds : term.Folds mode given) (side : Side)
    (found : term.operand? side = some operand) :
    operand.Folds mode fun path => given (side :: path) := by
  intro path token here
  obtain ⟨node, v, reached, success, literal⟩ := folds (side :: path) token here
  rw [at?_cons, found, Option.bind_some] at reached
  exact ⟨node, v, reached, success, literal⟩

/-- The literal that is given for a term has its value. -/
theorem Folds.value_root (folds : term.Folds mode given) (here : given [] = some token) :
    (literal token).value mode = term.value mode := by
  obtain ⟨node, v, reached, success, -, text⟩ := folds [] token here
  obtain rfl : term = node := Option.some_inj.mp reached
  rw [success, value, literalValue, text, Decimal.int64OfText?_ofInt64]

/-- By induction on the term: a node that stays has the same operands up to their values. -/
theorem Folds.value_eq (folds : term.Folds mode given) :
    (term.withLiterals given).value mode = term.value mode := by
  induction term generalizing given with
  | literal token =>
    cases here : given [] with
    | some folded => rw [withLiterals_of_some here, folds.value_root here]
    | none => rw [withLiterals, here]
  | keyword token operand ih =>
    cases here : given [] with
    | some folded => rw [withLiterals_of_some here, folds.value_root here]
    | none =>
      have only := ih (folds.operand .left rfl)
      simp only [withLiterals, here]
      rw [value, value, only]
  | operation token left right ihl ihr =>
    cases here : given [] with
    | some folded => rw [withLiterals_of_some here, folds.value_root here]
    | none =>
      have first := ihl (folds.operand .left rfl)
      have second := ihr (folds.operand .right rfl)
      simp only [withLiterals, here]
      rw [value, value, first, second]

/-- In either way of evaluation, any subterms that have values may be folded at once, as long as
none of them is part of another: in place of each of them stands a literal with its value in
decimal, at any offset, and every node outside them is still there. The term has the value that it
has had, or the same fault at the same place. -/
theorem folding_keeps_value (mode : Overflow) (term : Term) (given : Path → Option Token)
    (folds : term.Folds mode given) (disjoint : Disjoint given) :
    (∀ path token, given path = some token →
      (term.withLiterals given).at? path = some (.literal token)) ∧
    (∀ path, (∀ first, first <+: path → given first = none) →
      ((term.withLiterals given).at? path).map Term.token = (term.at? path).map Term.token) ∧
    (term.withLiterals given).value mode = term.value mode := by
  refine ⟨?_, ?_, Folds.value_eq folds⟩
  · intro path token here
    obtain ⟨node, v, reached, -⟩ := folds path token here
    have above : ∀ first, first <+: path → first ≠ path → given first = none := by
      intro first leads different
      rw [← Option.not_isSome_iff_eq_none]
      intro folded
      exact different (disjoint first path folded (by rw [here, Option.isSome_some]) leads)
    rw [at?_withLiterals given term path above, reached, Option.map_some,
      withLiterals_of_some (by rwa [List.append_nil])]
  · intro path outside
    rw [at?_withLiterals given term path fun first leads _ => outside first leads, Option.map_map]
    cases term.at? path with
    | none => rfl
    | some node =>
      have here : given (path ++ []) = none := by
        rw [List.append_nil]
        exact outside path (List.prefix_refl path)
      exact congrArg some (token_withLiterals_of_none here)

/-- The least word is folded, and so is a sum inside an unknown keyword, which is still the one that
is reported. -/
theorem folding_keeps_value_of_product :
    let least : Term := .operation ⟨.operator, "-", 5⟩
      (.literal ⟨.number, "-9223372036854775807", 7⟩) (.literal ⟨.number, "1", 28⟩)
    let sum : Term := .operation ⟨.operator, "+", 37⟩ (.literal ⟨.number, "1", 39⟩)
      (.literal ⟨.number, "2", 41⟩)
    let product : Term := .operation ⟨.operator, "*", 1⟩ least (.keyword ⟨.keyword, "foo", 32⟩ sum)
    let folded : Term := .operation ⟨.operator, "*", 1⟩
      (.literal ⟨.number, "-9223372036854775808", 70⟩)
      (.keyword ⟨.keyword, "foo", 32⟩ (.literal ⟨.number, "3", 0⟩))
    folded.value .checked = product.value .checked ∧
      product.value .checked = .error (.unsupported "foo" 32) := by
  intro least sum product folded
  let given : Path → Option Token := fun path =>
    if path = [.left] then some ⟨.number, "-9223372036854775808", 70⟩
    else if path = [.right, .left] then some ⟨.number, "3", 0⟩
    else none
  have folds : product.Folds .checked given := by
    intro path token here
    simp only [given] at here
    split at here
    · next left =>
      cases here
      exact ⟨least, -9223372036854775808, by rw [left]; rfl, by decide +kernel,
        rfl, by decide +kernel⟩
    · split at here
      · next inside =>
        cases here
        exact ⟨sum, 3, by rw [inside]; rfl, by decide +kernel, rfl, by decide +kernel⟩
      · cases here
  have disjoint : Disjoint given := by
    have among {path : Path} (here : (given path).isSome) :
        path = [.left] ∨ path = [.right, .left] := by
      by_contra other
      rw [not_or] at other
      simp [given, other] at here
    intro path other here there leads
    rcases among here with rfl | rfl <;> rcases among there with rfl | rfl
    · rfl
    · simp at leads
    · simp at leads
    · rfl
  have fault : product.value .checked = .error (.unsupported "foo" 32) := by decide +kernel
  exact ⟨(folding_keeps_value .checked product given folds disjoint).2.2, fault⟩

end PrefixArith.Term
