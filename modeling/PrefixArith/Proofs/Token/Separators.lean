import PrefixArith.Proofs.Term.Relocation
import PrefixArith.Proofs.Token.Scanning

/-!
# Separators between tokens

Characters that belong to no token only keep tokens apart. Wherever a line has a run of them it may
have any other one, and its tokens stay the same but for where they stand
(`Respaced.scanFrom_map_relocate`).
-/
namespace PrefixArith.Token
open Text (byteSize)

instance (c : Char) : Decidable (Recognised c) := inferInstanceAs (Decidable (_ ∨ _ ∨ _))

/-- A run of separators: one character or more, none of which belongs to a token. -/
def Separators (chars : List Char) : Prop := chars ≠ [] ∧ ∀ c ∈ chars, ¬ Recognised c

instance (chars : List Char) : Decidable (Separators chars) :=
  decidable_of_iff (chars.isEmpty = false ∧ (chars.all fun c => !decide (Recognised c)) = true)
    (by simp [Separators])

/-- The same recognised characters, with separators between the same ones of them. A run of
separators, whether it is maximal or part of a longer one, may be replaced by any other, as far as
the two are `alike`. -/
inductive Respaced (alike : List Char → List Char → Prop) : List Char → List Char → Prop where
  | nil : Respaced alike [] []
  | keep {c : Char} {rest rest' : List Char} (known : Recognised c)
      (others : Respaced alike rest rest') : Respaced alike (c :: rest) (c :: rest')
  | replace {run run' rest rest' : List Char} (separators : Separators run)
      (separators' : Separators run') (fits : alike run run') (others : Respaced alike rest rest') :
      Respaced alike (run ++ rest) (run' ++ rest')

section Runs
variable {run : List Char} {place : Place} {offset : Nat}

theorem scanFrom_of_separators (apart : ∀ c ∈ run, ¬ Recognised c) :
    scanFrom place offset run = [] := by
  induction run generalizing place offset with
  | nil => rfl
  | cons c rest ih =>
    rw [List.forall_mem_cons] at apart
    rw [scanFrom_of_separates (Place.role_eq_separates_iff.mpr apart.1), ih apart.2]

theorem Separators.behind_eq (separators : Separators run) : place.behind run = .elsewhere := by
  obtain ⟨earlier, c, rfl⟩ := (List.eq_nil_or_concat run).resolve_left separators.1
  have apart : ¬ Recognised c := separators.2 c (by simp)
  simp [Place.after_of_not_recognised _ apart]

/-- A run of separators leaves nothing of what stands before it but its size. -/
theorem Separators.scanFrom_append (separators : Separators run) (rest : List Char) :
    scanFrom place offset (run ++ rest) = scanFrom .elsewhere (offset + byteSize run) rest := by
  have stops : (place.behind run).run rest = [] := by
    rw [separators.behind_eq]
    rfl
  rw [Token.scanFrom_append stops, scanFrom_of_separators separators.2, separators.behind_eq,
    List.nil_append]

theorem Separators.run_append (separators : Separators run) (rest : List Char) :
    place.run (run ++ rest) = [] := by
  obtain ⟨c, others, rfl⟩ := List.exists_cons_of_ne_nil separators.1
  have apart : ¬ Recognised c := separators.2 c List.mem_cons_self
  rw [List.cons_append, Place.run_cons, Place.role_of_not_recognised place apart]
  rfl

end Runs

namespace Respaced
variable {alike : List Char → List Char → Prop} {a b : List Char}

/-- Recognised characters in a row are kept. -/
theorem keep_all {word : List Char} (known : ∀ c ∈ word, Recognised c)
    (others : Respaced alike a b) : Respaced alike (word ++ a) (word ++ b) := by
  induction word with
  | nil => exact others
  | cons c rest ih =>
    rw [List.forall_mem_cons] at known
    exact .keep known.1 (ih known.2)

/-- The token in progress goes on with the same characters. -/
theorem run_eq (respaced : Respaced alike a b) (place : Place) : place.run a = place.run b := by
  induction respaced generalizing place with
  | nil => rfl
  | keep known others ih => rw [Place.run_cons, Place.run_cons, ih]
  | replace separators separators' fits others ih =>
    rw [separators.run_append, separators'.run_append]

/-- The tokens are the same if they are moved by a function for which the offsets in the two texts
are the same. -/
theorem scanFrom_map_relocate (respaced : Respaced alike a b) {f : Nat → Nat}
    (char : ∀ n m size, f n = f m → f (n + size) = f (m + size))
    (run : ∀ n m r s, alike r s → f n = f m → f (n + byteSize r) = f (m + byteSize s))
    (place : Place) {offset offset' : Nat} (same : f offset = f offset') :
    (scanFrom place offset a).map (relocate f) = (scanFrom place offset' b).map (relocate f) := by
  induction respaced generalizing place offset offset' with
  | nil => rfl
  | @keep c rest rest' known others ih =>
    have later := ih (place.after c) (char _ _ c.utf8Size same)
    cases role : place.role c with
    | starts kind =>
      rw [scanFrom_of_starts role, scanFrom_of_starts role, List.map_cons, List.map_cons, later,
        others.run_eq, relocate, relocate, same]
    | continues => rw [scanFrom_of_continues role, scanFrom_of_continues role, later]
    | separates => rw [scanFrom_of_separates role, scanFrom_of_separates role, later]
  | @replace r s rest rest' separators separators' fits others ih =>
    rw [separators.scanFrom_append, separators'.scanFrom_append]
    exact ih .elsewhere (run _ _ r s fits same)

theorem byteSize_eq (respaced : Respaced (fun r s => byteSize r = byteSize s) a b) :
    byteSize a = byteSize b := by
  induction respaced with
  | nil => rfl
  | keep known others ih => rw [Text.byteSize_cons, Text.byteSize_cons, ih]
  | replace separators separators' fits others ih =>
    rw [Text.byteSize_append, Text.byteSize_append, fits, ih]

end Respaced

end PrefixArith.Token
