import PrefixArith.Proofs.Random.Uniformity

/-!
# Words that make a choice

Every number in its range is selected by some word, and every event that is neither sure nor
impossible happens on some words and not on others. So a draw can be led to what it may yield: one
word for each of its choices, in order, is enough, and it takes no other (`Yields`).
-/
namespace PrefixArith.Random

/-- The source behind its next `count` words. -/
def Source.skip (source : Source) (count : Nat) : Source :=
  { source with taken := source.taken + count }

/-- The given words are the next ones of the source. -/
def Source.Begins (source : Source) (words : List UInt64) : Prop :=
  ∀ n word, words[n]? = some word → source.word (source.taken + n) = word

/-- From every source that begins with the words the draw yields `a`, and takes exactly these. -/
def Yields {α : Type} (draw : Draw α) (words : List UInt64) (a : α) : Prop :=
  ∀ source : Source, source.Begins words → draw.run source = some (a, source.skip words.length)

/-! ## Steps -/

section Steps
variable {α β : Type} {source : Source} {words more : List UInt64}

theorem Source.skip_skip (source : Source) (first second : Nat) :
    (source.skip first).skip second = source.skip (first + second) := by
  rw [skip, skip, skip, Nat.add_assoc]

theorem Source.Begins.first (begins : source.Begins (words ++ more)) : source.Begins words := by
  intro n word found
  have inside := (List.getElem?_eq_some_iff.mp found).1
  refine begins n word ?_
  rwa [List.getElem?_append_left inside]

theorem Source.Begins.second (begins : source.Begins (words ++ more)) :
    (source.skip words.length).Begins more := by
  intro n word found
  have same := begins (words.length + n) word (by
    rwa [List.getElem?_append_right (Nat.le_add_right _ _), Nat.add_sub_cancel_left])
  rwa [← Nat.add_assoc] at same

theorem Source.Begins.append (one : source.Begins words)
    (other : (source.skip words.length).Begins more) : source.Begins (words ++ more) := by
  intro n word found
  by_cases inside : n < words.length
  · rw [List.getElem?_append_left inside] at found
    exact one n word found
  · rw [List.getElem?_append_right (Nat.le_of_not_lt inside)] at found
    have next := other _ word found
    rwa [skip, Nat.add_assoc, Nat.add_sub_cancel' (Nat.le_of_not_lt inside)] at next

namespace Yields

theorem ret (a : α) : Yields (pure a : Draw α) [] a := fun _ _ => rfl

theorem bind {first : Draw α} {next : α → Draw β} {a : α} {b : β} (one : Yields first words a)
    (other : Yields (next a) more b) : Yields (first >>= next) (words ++ more) b := by
  intro source begins
  refine run_bind_eq_some.mpr ⟨a, _, one source begins.first, ?_⟩
  rw [other _ begins.second, Source.skip_skip, List.length_append]

/-- What is done with a choice in the end takes no word. -/
theorem map {first : Draw α} {a : α} (one : Yields first words a) (f : α → β) :
    Yields (do return f (← first)) words (f a) := by
  intro source begins
  exact run_bind_eq_some.mpr ⟨a, _, one source begins, rfl⟩

end Yields

theorem nextWord_yields (word : UInt64) : Yields nextWord [word] word := by
  intro source begins
  have next : source.word source.taken = word := begins 0 word rfl
  rw [← next]
  rfl

end Steps

/-! ## Uniform choices -/

/-- Every number of the range is selected by a word. -/
theorem exists_selected? {range n : Nat} (inside : n < range) (small : range < UInt64.size) :
    ∃ word, selected? range word = some n := by
  have some : {word | selected? range word = some n}.ncard ≠ 0 := by
    rw [ncard_selected? inside small]
    exact Nat.ne_of_gt (Nat.two_pow_pos _)
  exact Set.nonempty_of_ncard_ne_zero some

/-- A word that is not rejected decides a choice at once. -/
theorem below_yields {range n : Nat} {word : UInt64} (selects : selected? range word = some n)
    (patience : Nat) : Yields (below range (patience + 1)) [word] n := by
  unfold below
  refine (nextWord_yields word).bind ?_
  rw [selects]
  exact .ret n

/-- Every word between two others is chosen for some word. -/
theorem exists_between_yields {least greatest v : Int64} (low : least.toInt ≤ v.toInt)
    (high : v.toInt ≤ greatest.toInt) :
    ∃ word, ∀ patience, Yields (between least greatest (patience + 1)) [word] v := by
  by_cases all : (greatest.toInt - least.toInt + 1).toNat = UInt64.size
  · refine ⟨v.toUInt64, fun patience => ?_⟩
    have chosen := (nextWord_yields v.toUInt64).map UInt64.toInt64
    rw [Int64.toInt64_toUInt64] at chosen
    unfold between
    simp only [if_pos all]
    exact chosen
  · have small : (greatest.toInt - least.toInt + 1).toNat < UInt64.size := by
      have low := least.le_toInt
      have high := greatest.toInt_lt
      have size : UInt64.size = 18446744073709551616 := rfl
      omega
    have inside :
      (v.toInt - least.toInt).toNat < (greatest.toInt - least.toInt + 1).toNat := by omega
    obtain ⟨word, selects⟩ := exists_selected? inside small
    refine ⟨word, fun patience => ?_⟩
    have chosen := (below_yields selects patience).map fun n => Int64.ofInt (least.toInt + n)
    have distance : least.toInt + ((v.toInt - least.toInt).toNat : Int) = v.toInt := by omega
    rw [distance, Int64.ofInt_toInt] at chosen
    unfold between
    simp only [if_neg all]
    exact chosen

/-! ## Events -/

section Events
variable {probability : Binary64}

theorem isOne_of_scaled_lt (unsure : probability.scaled < UInt64.size) :
    probability.isOne = false := by
  cases probability with
  | nan => rfl
  | infinite negative => rfl
  | finite negative significand exponent =>
    rw [Bool.eq_false_iff]
    intro one
    obtain ⟨-, same⟩ : negative = false ∧
        (Binary64.fraction significand exponent).1 =
          (Binary64.fraction significand exponent).2 := by
      simpa [Binary64.isOne] using one
    have positive : 0 < (Binary64.fraction significand exponent).2 := by
      unfold Binary64.fraction
      split
      · exact Nat.one_pos
      · rw [Nat.one_shiftLeft]
        exact Nat.two_pow_pos _
    simp only [Binary64.scaled, same] at unsure
    rw [Nat.mul_div_cancel_left _ positive] at unsure
    exact Nat.lt_irrefl _ unsure

theorem chance_yields (unsure : probability.scaled < UInt64.size) (word : UInt64) :
    Yields (chance probability) [word] (decide (word.toNat < probability.scaled)) := by
  have decided := (nextWord_yields word).map fun word => decide (word.toNat < probability.scaled)
  unfold chance
  rw [if_neg (Bool.eq_false_iff.mp (isOne_of_scaled_lt unsure))]
  exact decided

/-- An event that is neither sure nor impossible happens or does not, as a word decides. -/
theorem exists_chance_yields (possible : 1 ≤ probability.scaled)
    (unsure : probability.scaled < UInt64.size) (happens : Bool) :
    ∃ word, Yields (chance probability) [word] happens := by
  cases happens with
  | true =>
    have hit := chance_yields unsure 0
    rw [decide_eq_true (show (0 : UInt64).toNat < probability.scaled from possible)] at hit
    exact ⟨0, hit⟩
  | false =>
    have missed := chance_yields unsure (UInt64.ofNat probability.scaled)
    rw [UInt64.toNat_ofNat_of_lt' unsure, decide_eq_false (Nat.lt_irrefl _)] at missed
    exact ⟨_, missed⟩

end Events

end PrefixArith.Random
