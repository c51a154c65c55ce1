import PrefixArith.Proofs.Random.Words

/-!
# Draws that come to an end

A uniform choice ends at the first word that it does not reject, and a zero is never rejected. So it
is enough that on a tape of words a zero is never far: then all draws come to an end from wherever
the tape is read, with every patience that reaches so far, and how many words they take is bounded
by their shape (`EndsWithin`). The multiples of any step run through a zero, since there are only so
many words.
-/
namespace PrefixArith.Random

/-- From wherever the tape is read, a zero is among the next words. -/
def ZeroWithin (tape : Nat → UInt64) (enough : Nat) : Prop :=
  ∀ taken, ∃ n, n < enough ∧ tape (taken + n) = 0

/-- From wherever the tape is read, the draw yields the same with every patience of at least
`enough`, and takes at most `bound` words. -/
def EndsWithin {α : Type} (tape : Nat → UInt64) (enough bound : Nat)
    (draw : (patience : Nat) → Draw α) : Prop :=
  ∀ taken, ∃ a count, count ≤ bound ∧ ∀ patience, enough ≤ patience →
    (draw patience).run ⟨tape, taken⟩ = some (a, ⟨tape, taken + count⟩)

variable {α β : Type} {tape : Nat → UInt64} {enough : Nat}

/-! ## Steps -/

namespace EndsWithin
variable {bound more : Nat} {first : Nat → Draw α} {next : Nat → α → Draw β}

theorem ret (a : α) : EndsWithin tape enough 0 fun _ => (pure a : Draw α) :=
  fun _ => ⟨a, 0, Nat.le_refl 0, fun _ _ => rfl⟩

theorem bind (one : EndsWithin tape enough bound first)
    (each : ∀ a, EndsWithin tape enough more fun patience => next patience a) :
    EndsWithin tape enough (bound + more) fun patience => first patience >>= next patience := by
  intro taken
  obtain ⟨a, count, few, step⟩ := one taken
  obtain ⟨b, later, few', step'⟩ := each a (taken + count)
  refine ⟨b, count + later, Nat.add_le_add few few', fun patience reaches => ?_⟩
  rw [← Nat.add_assoc]
  exact run_bind_eq_some.mpr ⟨a, _, step patience reaches, step' patience reaches⟩

/-- What is done with a choice in the end takes no word. -/
theorem map (one : EndsWithin tape enough bound first) (f : α → β) :
    EndsWithin tape enough bound fun patience => do return f (← first patience) :=
  one.bind fun a => .ret (f a)

theorem mono (ends : EndsWithin tape enough bound first) (le : bound ≤ more) :
    EndsWithin tape enough more first := by
  intro taken
  obtain ⟨a, count, few, step⟩ := ends taken
  exact ⟨a, count, few.trans le, step⟩

end EndsWithin

/-! ## Choices -/

theorem ZeroWithin.positive (zeros : ZeroWithin tape enough) : 0 < enough := by
  obtain ⟨n, inside, -⟩ := zeros 0
  exact Nat.zero_lt_of_lt inside

theorem nextWord_endsWithin : EndsWithin tape enough 1 fun _ => nextWord :=
  fun taken => ⟨tape taken, 1, Nat.le_refl 1, fun _ _ => rfl⟩

section Below
variable {range taken patience : Nat}

theorem run_below_of_selected {number : Nat}
    (selects : selected? range (tape taken) = some number) :
    (below range (patience + 1)).run ⟨tape, taken⟩ = some (number, ⟨tape, taken + 1⟩) := by
  refine run_bind_eq_some.mpr ⟨tape taken, ⟨tape, taken + 1⟩, rfl, ?_⟩
  rw [selects]
  rfl

theorem run_below_of_rejected (rejects : selected? range (tape taken) = none) :
    (below range (patience + 1)).run ⟨tape, taken⟩ =
      (below range patience).run ⟨tape, taken + 1⟩ := by
  have step : nextWord.run ⟨tape, taken⟩ = some (tape taken, ⟨tape, taken + 1⟩) := rfl
  rw [below, StateT.run_bind, step, Option.bind_eq_bind, Option.bind_some]
  simp only [rejects]

/-- A choice that meets a zero behind `n` other words is over by then. By induction on `n`, as long
as words are rejected. -/
theorem below_of_zero (range : Nat) {n taken : Nat} (zero : tape (taken + n) = 0) :
    ∃ number count, count ≤ n + 1 ∧ ∀ rest,
      (below range (rest + n + 1)).run ⟨tape, taken⟩ = some (number, ⟨tape, taken + count⟩) := by
  induction n generalizing taken with
  | zero =>
    have selects : selected? range (tape taken) = some 0 := by
      rw [Nat.add_zero] at zero
      rw [zero, selected?_zero]
    exact ⟨0, 1, Nat.le_refl 1, fun rest => run_below_of_selected selects⟩
  | succ n ih =>
    cases outcome : selected? range (tape taken) with
    | some number => exact ⟨number, 1, by omega, fun rest => run_below_of_selected outcome⟩
    | none =>
      rw [← Nat.add_assoc, Nat.add_right_comm] at zero
      obtain ⟨number, count, few, ends⟩ := ih zero
      refine ⟨number, count + 1, by omega, fun rest => ?_⟩
      rw [run_below_of_rejected outcome, ← Nat.add_assoc, ends, Nat.add_assoc, Nat.add_comm 1]

end Below

section Zeros
variable (zeros : ZeroWithin tape enough)
include zeros

theorem below_endsWithin (range : Nat) : EndsWithin tape enough enough (below range) := by
  intro taken
  obtain ⟨n, inside, zero⟩ := zeros taken
  obtain ⟨number, count, few, ends⟩ := below_of_zero range zero
  refine ⟨number, count, by omega, fun patience reaches => ?_⟩
  obtain ⟨rest, rfl⟩ : ∃ rest, patience = rest + n + 1 := ⟨patience - (n + 1), by omega⟩
  exact ends rest

theorem between_endsWithin (least greatest : Int64) :
    EndsWithin tape enough enough (between least greatest) := by
  unfold between
  simp only
  split
  · exact (nextWord_endsWithin.map UInt64.toInt64).mono zeros.positive
  · exact (below_endsWithin zeros _).map fun n => Int64.ofInt (least.toInt + n)

end Zeros

theorem chance_endsWithin (probability : Binary64) :
    EndsWithin tape enough 1 fun _ => chance probability := by
  unfold chance
  split
  · exact (EndsWithin.ret true).mono (Nat.zero_le 1)
  · exact nextWord_endsWithin.map fun word => decide (word.toNat < probability.scaled)

/-! ## Listed words -/

/-- Behind the list the word number `n * UInt64.size` is zero, whatever the step is. -/
theorem listed_word_of_multiple (words : List UInt64) (n : Nat) :
    (Source.listed words).word (words.length + ((n + 1) * UInt64.size - 1)) = 0 := by
  have positive : 0 < (n + 1) * UInt64.size := Nat.mul_pos (Nat.succ_pos n) (by decide)
  have place : words.length + ((n + 1) * UInt64.size - 1) - words.length + 1 =
      (n + 1) * UInt64.size := by omega
  have wraps : UInt64.ofNat ((n + 1) * UInt64.size) = 0 := by
    apply UInt64.toNat_inj.mp
    rw [UInt64.toNat_ofNat']
    exact Nat.mul_mod_left (n + 1) UInt64.size
  have none : words[words.length + ((n + 1) * UInt64.size - 1)]? = none :=
    List.getElem?_eq_none (Nat.le_add_right _ _)
  rw [Source.listed]
  simp only [List.getD_eq_getElem?_getD, none, Option.getD_none, place, wraps, UInt64.zero_mul]

theorem zeroWithin_listed (words : List UInt64) :
    ZeroWithin (Source.listed words).word (words.length + UInt64.size) := by
  intro taken
  -- the first such word that has not been taken
  obtain ⟨round, before, reaches⟩ : ∃ round, round * UInt64.size ≤ taken - words.length ∧
      taken - words.length < (round + 1) * UInt64.size := by
    refine ⟨(taken - words.length) / UInt64.size, Nat.div_mul_le_self _ _, ?_⟩
    rw [Nat.mul_comm]
    exact Nat.lt_mul_div_succ _ (by decide)
  have place := listed_word_of_multiple words round
  rw [Nat.succ_mul] at place reaches
  refine ⟨words.length + (round * UInt64.size + UInt64.size - 1) - taken, by omega, ?_⟩
  rwa [Nat.add_sub_cancel' (show taken ≤ _ by omega)]

end PrefixArith.Random
