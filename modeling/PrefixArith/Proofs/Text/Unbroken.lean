import PrefixArith.Proofs.Decimal
import PrefixArith.Proofs.Text.Lines
import PrefixArith.SolverText

/-!
# Texts that stay on one line

A text without line feeds and carriage returns is one line wherever it is written with a line feed
behind it, so texts written below one another are read back as they are (`lines_join_feed`).
-/
namespace PrefixArith.Text

/-- The text has no part of a line end in it. -/
def Unbroken (text : String) : Prop := ∀ c ∈ text.toList, c ≠ '\n' ∧ c ≠ '\r'

instance (text : String) : Decidable (Unbroken text) :=
  List.decidableBAll (fun c => c ≠ '\n' ∧ c ≠ '\r') text.toList

@[simp] theorem unbroken_append {a b : String} : Unbroken (a ++ b) ↔ Unbroken a ∧ Unbroken b := by
  rw [Unbroken, String.toList_append, List.forall_mem_append, Unbroken, Unbroken]

theorem Unbroken.no_feed {text : String} (unbroken : Unbroken text) : '\n' ∉ text.toList :=
  fun mem => (unbroken _ mem).1 rfl

/-- An unbroken text with a line feed behind it is one line. -/
theorem lines_feed {text : String} (unbroken : Unbroken text) : lines (text ++ "\n") = [text] := by
  have final : text.toList.getLast? ≠ some '\r' := fun mark =>
    (unbroken _ (List.mem_of_getLast? mark)).2 rfl
  rw [lines_eq, toList_feed, linesBy_append, linesBy_nil, List.append_nil,
    List.splitOn_eq_singleton unbroken.no_feed, List.map_singleton, trimmed, if_neg final,
    List.map_singleton, String.ofList_toList]

theorem lines_join_feed {texts : List String} (unbroken : ∀ text ∈ texts, Unbroken text) :
    lines (String.join (texts.map fun text => text ++ "\n")) = texts := by
  induction texts with
  | nil => rfl
  | cons text others ih =>
    rw [List.forall_mem_cons] at unbroken
    rw [List.map_cons, String.join_cons, lines_append (.inr ⟨text, rfl⟩), lines_feed unbroken.1,
      ih unbroken.2, List.singleton_append]

/-! ## Numbers -/

theorem unbroken_of_digits {digits : List Char} (inside : ∀ c ∈ digits, c.isDigit = true) :
    Unbroken (String.ofList digits) := by
  intro c mem
  rw [String.toList_ofList] at mem
  constructor <;>
  · rintro rfl
    have digit := inside _ mem
    simp at digit

theorem unbroken_ofNat (n : Nat) : Unbroken (Decimal.ofNat n) :=
  unbroken_of_digits (Decimal.digits_toDigits n).2

theorem unbroken_ofInt (z : Int) : Unbroken (Decimal.ofInt z) := by
  unfold Decimal.ofInt
  split
  · exact unbroken_append.mpr ⟨by decide, unbroken_ofNat _⟩
  · exact unbroken_ofNat _

theorem unbroken_solverText (v : Int64) : Unbroken (SolverText.ofInt64 v) := by
  unfold SolverText.ofInt64
  split
  · exact unbroken_append.mpr ⟨unbroken_append.mpr ⟨by decide, unbroken_ofNat _⟩, by decide⟩
  · exact unbroken_ofNat _

end PrefixArith.Text
