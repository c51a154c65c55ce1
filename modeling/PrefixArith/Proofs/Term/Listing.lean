import Mathlib.Data.List.Basic
import PrefixArith.Term

/-!
# Pre-order listings of terms

The tokens of a term, each before those of its operands. When every node has as many operands as its
token asks for, the listing needs no parentheses: the tokens alone decide which term they list and
where it ends (`tokens_append_inj`).
-/
namespace PrefixArith

namespace Token

/-- The tokens that are not parentheses. -/
def significant (tokens : List Token) : List Token := tokens.filter fun token => !token.isParen

/-- What follows the first `count` tokens that are not parentheses. -/
def skip : Nat → List Token → List Token
  | 0, tokens => tokens
  | count + 1, tokens => skip count (tokens.dropWhile isParen).tail

theorem isParen_of_application {token : Token}
    (kind : token.kind = .operator ∨ token.kind = .keyword) : token.isParen = false := by
  rcases kind with kind | kind <;> simp [isParen, kind]

@[simp] theorem significant_nil : significant [] = [] := rfl

@[simp] theorem significant_append (a b : List Token) :
    significant (a ++ b) = significant a ++ significant b := List.filter_append ..

theorem significant_singleton {token : Token} (solid : token.isParen = false) :
    significant [token] = [token] := by simp [significant, solid]

theorem mem_significant {token : Token} {tokens : List Token} :
    token ∈ significant tokens ↔ token ∈ tokens ∧ token.isParen = false := by
  simp [significant]

theorem length_eq_significant_add (tokens : List Token) :
    tokens.length = (significant tokens).length + (tokens.filter isParen).length := by
  rw [significant, List.length_eq_length_filter_add isParen, Nat.add_comm]

/-- Passing over parentheses loses no significant token. -/
theorem significant_dropWhile (tokens : List Token) :
    significant (tokens.dropWhile isParen) = significant tokens := by
  induction tokens with
  | nil => rfl
  | cons token rest ih =>
    cases h : token.isParen with
    | true => simpa [h, significant] using ih
    | false => simp [h]

theorem significant_eq_nil {tokens : List Token} (h : tokens.dropWhile isParen = []) :
    significant tokens = [] := by
  rw [← significant_dropWhile, h, significant_nil]

theorem significant_eq_cons {tokens rest : List Token} {token : Token}
    (h : tokens.dropWhile isParen = token :: rest) :
    token.isParen = false ∧ significant tokens = token :: significant rest := by
  have found : token.isParen = false := by
    have stop := List.head_dropWhile_not (p := isParen) (l := tokens) (by simp [h])
    simpa only [h, List.head_cons] using stop
  refine ⟨found, ?_⟩
  rw [← significant_dropWhile, h]
  simp [significant, found]

/-- The first significant token comes after parentheses only. -/
theorem dropWhile_eq_cons {tokens more : List Token} {token : Token}
    (h : significant tokens = token :: more) :
    ∃ rest, tokens.dropWhile isParen = token :: rest ∧ significant rest = more := by
  cases hd : tokens.dropWhile isParen with
  | nil => simp [significant_eq_nil hd] at h
  | cons first rest =>
    rw [(significant_eq_cons hd).2, List.cons.injEq] at h
    obtain ⟨rfl, hrest⟩ := h
    exact ⟨rest, rfl, hrest⟩

theorem skip_succ {tokens rest : List Token} {token : Token}
    (h : tokens.dropWhile isParen = token :: rest) (count : Nat) :
    skip (count + 1) tokens = skip count rest := by
  rw [skip, h, List.tail_cons]

theorem skip_add (first second : Nat) (tokens : List Token) :
    skip (first + second) tokens = skip second (skip first tokens) := by
  induction first generalizing tokens with
  | zero => rw [Nat.zero_add, skip]
  | succ first ih => rw [Nat.succ_add, skip, skip, ih]

end Token

namespace Term
open Token (significant skip)

/-- The tokens of a term, each before those of its operands. -/
def tokens (term : Term) : List Token := term.subterms.map token

@[simp] theorem tokens_literal (token : Token) : (literal token).tokens = [token] := rfl

@[simp] theorem tokens_keyword (token : Token) (operand : Term) :
    (keyword token operand).tokens = token :: operand.tokens := rfl

@[simp] theorem tokens_operation (token : Token) (left right : Term) :
    (operation token left right).tokens = token :: (left.tokens ++ right.tokens) := by
  simp only [tokens, subterms, List.map_cons, List.map_append]
  rfl

theorem tokens_length (term : Term) : term.tokens.length = term.size := by
  induction term with
  | literal token => rfl
  | keyword token operand ih => simp [size, ih]
  | operation token left right ihl ihr => simp [size, ihl, ihr]

/-- Every node stands for a token of its kind: operators have exactly two operands, keywords exactly
one and numbers none. -/
def Formed : Term → Prop
  | .literal token => token.kind = .number
  | .keyword token operand => token.kind = .keyword ∧ operand.Formed
  | .operation token left right => token.kind = .operator ∧ left.Formed ∧ right.Formed

/-- How many applications stand around one another at most. -/
def nesting : Term → Nat
  | .literal _ => 0
  | .keyword _ operand => operand.nesting + 1
  | .operation _ left right => max left.nesting right.nesting + 1

theorem depth_eq_nesting (term : Term) : term.depth = term.nesting + 1 := by
  induction term with
  | literal token => rfl
  | keyword token operand ih => rw [depth, nesting, ih]
  | operation token left right ihl ihr =>
    rw [depth, nesting, ihl, ihr]
    omega

/-- The kind of token that the root asks for. -/
def rootKind : Term → Token.Kind
  | .literal _ => .number
  | .keyword _ _ => .keyword
  | .operation _ _ _ => .operator

theorem Formed.kind_eq {term : Term} (formed : term.Formed) : term.token.kind = term.rootKind := by
  cases term with
  | literal token => exact formed
  | keyword token operand => exact formed.1
  | operation token left right => exact formed.1

theorem tokens_eq_cons (term : Term) : ∃ more, term.tokens = term.token :: more := by
  cases term with
  | literal token => exact ⟨[], rfl⟩
  | keyword token operand => exact ⟨operand.tokens, rfl⟩
  | operation token left right => exact ⟨_, tokens_operation token left right⟩

theorem rootKind_eq {term other : Term} {more rest : List Token}
    (ht : term.Formed) (ho : other.Formed) (h : term.tokens ++ more = other.tokens ++ rest) :
    term.rootKind = other.rootKind := by
  obtain ⟨tail, htail⟩ := term.tokens_eq_cons
  obtain ⟨tail', htail'⟩ := other.tokens_eq_cons
  rw [htail, htail', List.cons_append, List.cons_append, List.cons.injEq] at h
  rw [← ht.kind_eq, ← ho.kind_eq, h.1]

/-- A listing determines its term and its own end. -/
theorem tokens_append_inj {term other : Term} {more rest : List Token}
    (ht : term.Formed) (ho : other.Formed) (h : term.tokens ++ more = other.tokens ++ rest) :
    term = other ∧ more = rest := by
  induction term generalizing other more rest with
  | literal token =>
    have roots := rootKind_eq ht ho h
    cases other with
    | literal _ => simpa using h
    | keyword _ _ | operation _ _ _ => cases roots
  | keyword token operand ih =>
    have roots := rootKind_eq ht ho h
    cases other with
    | keyword _ operand' =>
      simp only [tokens_keyword, List.cons_append, List.cons.injEq] at h
      obtain ⟨rfl, h⟩ := h
      obtain ⟨rfl, rfl⟩ := ih ht.2 ho.2 h
      exact ⟨rfl, rfl⟩
    | literal _ | operation _ _ _ => cases roots
  | operation token left right ihl ihr =>
    have roots := rootKind_eq ht ho h
    cases other with
    | operation _ left' right' =>
      simp only [tokens_operation, List.cons_append, List.append_assoc, List.cons.injEq] at h
      obtain ⟨rfl, h⟩ := h
      obtain ⟨rfl, hright⟩ := ihl ht.2.1 ho.2.1 h
      obtain ⟨rfl, rfl⟩ := ihr ht.2.2 ho.2.2 hright
      exact ⟨rfl, rfl⟩
    | literal _ | keyword _ _ => cases roots

end Term

end PrefixArith
