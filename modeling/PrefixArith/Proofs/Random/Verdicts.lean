import PrefixArith.Proofs.Random.Endings

/-!
# What a word does to a choice

The next word selects what a choice yields, or it is rejected and the choice is made anew with the
words behind it. Never both happens (`Rejects.not_selects`). A verdict on single words tells which
it is for uniform choices, wherever the words are taken (`below_judged`, `between_judged`).
-/
namespace PrefixArith.Random

variable {α β : Type}

/-- With this word as the next one the draw yields `a`, and takes no other word. -/
def Selects (draw : (patience : Nat) → Draw α) (word : UInt64) (a : α) : Prop :=
  ∀ patience, Yields (draw (patience + 1)) [word] a

/-- With this word as the next one the draw goes on as from the word behind it. -/
def Rejects (draw : (patience : Nat) → Draw α) (word : UInt64) : Prop :=
  ∀ patience source, source.Begins [word] →
    (draw (patience + 1)).run source = (draw patience).run (source.skip 1)

/-- The source of one word, over and over. -/
def Source.constant (word : UInt64) : Source := ⟨fun _ => word, 0⟩

theorem Source.constant_begins (word : UInt64) (count : Nat) :
    ((constant word).skip count).Begins [word] := by
  intro n other found
  obtain ⟨inside, same⟩ := List.getElem?_eq_some_iff.mp found
  rw [List.getElem_singleton] at same
  exact same

section Verdicts
variable {draw : (patience : Nat) → Draw α} {word : UInt64} {a b : α}

theorem Selects.unique (one : Selects draw word a) (other : Selects draw word b) : a = b := by
  have begins := Source.constant_begins word 0
  have same := (one 0 _ begins).symm.trans (other 0 _ begins)
  rw [Option.some_inj, Prod.mk.injEq] at same
  exact same.1

/-- A word that is rejected would have to be taken again. -/
theorem Rejects.not_selects (rejects : Rejects draw word) : ¬ Selects draw word a := by
  intro selects
  have begins := Source.constant_begins word 0
  have begins' := Source.constant_begins word 1
  have same := (selects 1 _ begins).symm.trans ((rejects 1 _ begins).trans (selects 0 _ begins'))
  rw [Option.some_inj, Prod.mk.injEq] at same
  have taken : 0 + 0 + 1 = 0 + 1 + 1 := congrArg Source.taken same.2
  cases taken

/-- What each word does: it selects what the verdict on it names, or is rejected if that is
nothing. -/
structure Judged (draw : (patience : Nat) → Draw α) (verdict : UInt64 → Option α) : Prop where
  selects : ∀ {word a}, verdict word = some a → Selects draw word a
  rejects : ∀ {word}, verdict word = none → Rejects draw word

namespace Judged
variable {verdict : UInt64 → Option α}

theorem selects_iff (judged : Judged draw verdict) :
    Selects draw word a ↔ verdict word = some a := by
  refine ⟨fun selects => ?_, judged.selects⟩
  cases named : verdict word with
  | some b => rw [(judged.selects named).unique selects]
  | none => exact absurd selects (judged.rejects named).not_selects

/-- A word is rejected exactly if it selects nothing. -/
theorem rejects_iff (judged : Judged draw verdict) :
    Rejects draw word ↔ ∀ a, ¬ Selects draw word a := by
  refine ⟨fun rejects a => rejects.not_selects, fun none => judged.rejects ?_⟩
  exact Option.eq_none_iff_forall_ne_some.mpr fun a named => none a (judged.selects named)

/-- What is done with a choice in the end changes what is selected, and nothing else. -/
theorem map (judged : Judged draw verdict) (f : α → β) :
    Judged (fun patience => do return f (← draw patience)) fun word => (verdict word).map f where
  selects mapped patience := by
    obtain ⟨a, named, rfl⟩ := Option.map_eq_some_iff.mp mapped
    exact (judged.selects named patience).map f
  rejects none patience source begins := by
    have rejects := judged.rejects (Option.map_eq_none_iff.mp none) patience source begins
    rw [StateT.run_bind, StateT.run_bind, rejects]

end Judged

end Verdicts

/-! ## Uniform choices -/

theorem Source.Begins.word_eq {source : Source} {word : UInt64} (begins : source.Begins [word]) :
    source.word source.taken = word := begins 0 word rfl

theorem below_judged (range : Nat) : Judged (below range) (selected? range) where
  selects := below_yields
  rejects none patience source begins := by
    rw [← begins.word_eq] at none
    exact run_below_of_rejected none

theorem between_judged (least greatest : Int64) :
    Judged (between least greatest) (selectedWord? least greatest) := by
  unfold between selectedWord?
  simp only
  split
  · refine ⟨fun named patience => ?_, fun none => ?_⟩
    · cases named
      exact (nextWord_yields _).map UInt64.toInt64
    · cases none
  · exact (below_judged _).map fun n => Int64.ofInt (least.toInt + n)

end PrefixArith.Random
