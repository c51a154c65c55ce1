import PrefixArith.Proofs.Term.Relocation

/-!
# Paths in a term

A subterm may occur in a term several times, so an occurrence is told by the path that leads to it
from the root. Literals may stand in for the subterms at some paths. They are then found there, and
every node that is neither replaced nor part of something that is keeps its token
(`at?_withLiterals`).
-/
namespace PrefixArith.Term

/-- Which operand of an application; the only one of a keyword is the left one. -/
inductive Side where
  | left | right
  deriving DecidableEq, Repr

/-- The way from the root to an occurrence of a subterm. -/
abbrev Path := List Side

/-- The operand on a side. -/
def operand? (term : Term) : Side → Option Term
  | .left => term.left?
  | .right => term.right?

/-- The subterm at the end of a path, if the term reaches as far. -/
def at? (term : Term) : Path → Option Term
  | [] => some term
  | side :: path => (term.operand? side).bind fun operand => operand.at? path

/-- The term with literals at the given paths. Of what stood below such a literal nothing is
left. -/
def withLiterals (given : Path → Option Token) (term : Term) : Term :=
  match given [] with
  | some token => .literal token
  | none =>
    match term with
    | .literal token => .literal token
    | .keyword token operand =>
      .keyword token (operand.withLiterals fun path => given (.left :: path))
    | .operation token left right =>
      .operation token (left.withLiterals fun path => given (.left :: path))
        (right.withLiterals fun path => given (.right :: path))

variable {given : Path → Option Token} {term : Term} {token : Token}

theorem at?_cons (term : Term) (side : Side) (path : Path) :
    term.at? (side :: path) = (term.operand? side).bind fun operand => operand.at? path := rfl

/-- A moved term has along each path what the term has there, moved. -/
theorem at?_relocate (f : Nat → Nat) (term : Term) (path : Path) :
    (term.relocate f).at? path = (term.at? path).map (relocate f) := by
  induction path generalizing term with
  | nil => rfl
  | cons side path ih =>
    have moved : (term.relocate f).operand? side = (term.operand? side).map (relocate f) := by
      cases term <;> cases side <;> rfl
    rw [at?_cons, at?_cons, moved]
    cases term.operand? side with
    | none => rfl
    | some operand => exact ih operand

/-! ## Where the literals of a term are -/

/-- All paths to literals have the given length. -/
def LiteralsAt (length : Nat) (term : Term) : Prop :=
  ∀ path token, term.at? path = some (.literal token) → path.length = length

namespace LiteralsAt
variable {length : Nat} {operand left right other : Term}

theorem literal (token : Token) : LiteralsAt 0 (literal token) := by
  intro path other reached
  cases path with
  | nil => rfl
  | cons side path => cases side <;> cases reached

theorem keyword (only : operand.LiteralsAt length) (token : Token) :
    (keyword token operand).LiteralsAt (length + 1) := by
  intro path other reached
  cases path with
  | nil => cases reached
  | cons side path =>
    cases side with
    | left => exact congrArg (· + 1) (only path other reached)
    | right => cases reached

theorem operation (first : left.LiteralsAt length) (second : right.LiteralsAt length)
    (token : Token) :
    (operation token left right).LiteralsAt (length + 1) := by
  intro path other reached
  cases path with
  | nil => cases reached
  | cons side path =>
    cases side with
    | left => exact congrArg (· + 1) (first path other reached)
    | right => exact congrArg (· + 1) (second path other reached)

/-- Literals are found along the same paths whatever the offsets are. -/
theorem of_eqUpToOffsets (literals : other.LiteralsAt length) (same : term.EqUpToOffsets other) :
    term.LiteralsAt length := by
  intro path token reached
  have moved := at?_relocate (fun _ => 0) term path
  rw [same, at?_relocate, reached, Option.map_some, Option.map_eq_some_iff] at moved
  obtain ⟨node, found, literal⟩ := moved
  cases node with
  | literal token => exact literals path token found
  | keyword token operand => cases literal
  | operation token left right => cases literal

end LiteralsAt

/-! ## Literals in place of subterms -/

theorem withLiterals_of_some (here : given [] = some token) :
    term.withLiterals given = .literal token := by
  cases term <;> rw [withLiterals, here]

theorem token_withLiterals_of_none (here : given [] = none) :
    (term.withLiterals given).token = term.token := by
  cases term <;> simp only [withLiterals, here, Term.token]

/-- If an application stays, the literals below it are those of its operands. -/
theorem operand?_withLiterals_of_none (here : given [] = none) (side : Side) :
    (term.withLiterals given).operand? side =
      (term.operand? side).map (withLiterals fun path => given (side :: path)) := by
  cases term <;> cases side <;> simp [withLiterals, here, operand?, left?, right?]

/-- Unless a literal cuts a path short, it leads to what it has led to before, with the literals
that are given from there on. -/
theorem at?_withLiterals (given : Path → Option Token) (term : Term) (path : Path)
    (above : ∀ first, first <+: path → first ≠ path → given first = none) :
    (term.withLiterals given).at? path =
      (term.at? path).map (withLiterals fun rest => given (path ++ rest)) := by
  induction path generalizing given term with
  | nil => rfl
  | cons side path ih =>
    have here : given [] = none := above [] List.nil_prefix (List.cons_ne_nil _ _).symm
    have below : ∀ first, first <+: path → first ≠ path → given (side :: first) = none := by
      intro first leads different
      exact above _ (List.cons_prefix_cons.mpr ⟨rfl, leads⟩) (by simpa using different)
    rw [at?_cons, at?_cons, operand?_withLiterals_of_none here]
    cases term.operand? side with
    | none => rfl
    | some operand => exact ih (fun path => given (side :: path)) operand below

end PrefixArith.Term
