import PrefixArith.Proofs.Formula.Batch
import PrefixArith.Proofs.Formula.Ledger

/-!
# Demands on one source

Formulas are asked for one at a time, as a batch or as a list, and one demand after the other is met
from the same source. Each word that is taken has a purpose, so their number follows from the
formulas and the rejections; and no other word has any influence (`words_are_accounted_for`).
-/
namespace PrefixArith.Formula

open PrefixArith.Random

/-- What is asked for: the next formula, the next ones as one text, or the next ones in a list. -/
inductive Demand where
  | formula
  | batch (count : Nat)
  | list (count : Nat)
  deriving DecidableEq, Repr

namespace Demand

/-- Meets a demand, by a list of texts. -/
def draw (settings : Settings) (patience : Nat) : Demand → Draw (List String)
  | formula => do return [← Formula.draw settings patience]
  | batch count => do return [← drawBatch settings patience count]
  | list count => drawList settings patience count

/-- The number of formulas that meet a demand. -/
def count : Demand → Nat
  | formula => 1
  | batch count => count
  | list count => count

/-- The texts that meet a demand by the formulas of the given expressions. -/
def texts (demand : Demand) (expressions : List Expression) : List String :=
  match demand with
  | formula => expressions.map text
  | batch _ => [sheet expressions]
  | list _ => expressions.map text

end Demand

/-- Meets demands in order, each from the source that the one before it leaves. -/
def drawAll (settings : Settings) (patience : Nat) : List Demand → Draw (List (List String))
  | [] => return []
  | demand :: demands => do
    let first ← demand.draw settings patience
    let others ← drawAll settings patience demands
    return first :: others

/-! ## Ledgers of demands -/

section Ledgers
variable (settings : Settings) (patience : Nat)

theorem drawList_keeps (count : Nat) :
    Keeps (drawList settings patience count) fun ledger formulas =>
      ∃ expressions : List Expression, expressions.length = count ∧
        formulas = expressions.map text ∧ settings.BooksAll ledger expressions := by
  induction count with
  | zero => exact .ret ⟨[], rfl, rfl, .nil⟩
  | succ count ih =>
    have others (first : String) :
        Keeps (do return first :: (← drawList settings patience count)) fun ledger formulas =>
          ∃ expressions : List Expression, expressions.length = count ∧
            formulas = first :: expressions.map text ∧ settings.BooksAll ledger expressions := by
      refine ih.map ?_
      rintro ledger _ ⟨expressions, length, rfl, booked⟩
      exact ⟨expressions, length, rfl, booked⟩
    refine (draw_keeps settings patience).bind _ others ?_
    rintro _ _ ledger later ⟨e, own, rfl⟩ ⟨expressions, length, rfl, rest⟩
    exact ⟨e :: expressions, congrArg (· + 1) length, rfl, .cons own rest⟩

theorem drawBatch_keeps (count : Nat) :
    Keeps (drawBatch settings patience count) fun ledger batch =>
      ∃ expressions : List Expression, expressions.length = count ∧
        batch = sheet expressions ∧ settings.BooksAll ledger expressions := by
  rw [drawBatch_eq]
  refine (drawList_keeps settings patience count).map ?_
  rintro ledger _ ⟨expressions, length, rfl, booked⟩
  exact ⟨expressions, length, rfl, booked⟩

theorem Demand.draw_keeps (demand : Demand) :
    Keeps (demand.draw settings patience) fun ledger output =>
      ∃ expressions : List Expression, expressions.length = demand.count ∧
        output = demand.texts expressions ∧ settings.BooksAll ledger expressions := by
  cases demand with
  | formula =>
    refine (Formula.draw_keeps settings patience).map ?_
    rintro ledger _ ⟨e, own, rfl⟩
    refine ⟨[e], rfl, rfl, ?_⟩
    rw [← List.append_nil ledger]
    exact .cons own .nil
  | batch count =>
    refine (drawBatch_keeps settings patience count).map ?_
    rintro ledger _ ⟨expressions, length, rfl, booked⟩
    exact ⟨expressions, length, rfl, booked⟩
  | list count => exact drawList_keeps settings patience count

theorem drawAll_keeps (demands : List Demand) :
    Keeps (drawAll settings patience demands) fun ledger outputs =>
      ∃ groups : List (List Expression), groups.map List.length = demands.map Demand.count ∧
        outputs = List.zipWith Demand.texts demands groups ∧
        settings.BooksAll ledger groups.flatten := by
  induction demands with
  | nil => exact .ret ⟨[], rfl, rfl, .nil⟩
  | cons demand demands ih =>
    have others (first : List String) :
        Keeps (do return first :: (← drawAll settings patience demands)) fun ledger outputs =>
          ∃ groups : List (List Expression), groups.map List.length = demands.map Demand.count ∧
            outputs = first :: List.zipWith Demand.texts demands groups ∧
            settings.BooksAll ledger groups.flatten := by
      refine ih.map ?_
      rintro ledger _ ⟨groups, lengths, rfl, booked⟩
      exact ⟨groups, lengths, rfl, booked⟩
    refine (demand.draw_keeps settings patience).bind _ others ?_
    rintro _ _ ledger later ⟨expressions, length, rfl, own⟩ ⟨groups, lengths, rfl, rest⟩
    refine ⟨expressions :: groups, ?_, rfl, own.append rest⟩
    rw [List.map_cons, List.map_cons, length, lengths]

end Ledgers

/-- Whatever is demanded of a generator, if the demands are met, the texts are those of some
expressions, and the words taken are one for each of their operators, one for each of their
literals, those that uniform choices have rejected, and one for each operand of an operation at a
level below the cap, unless nesting is sure. The ledger tells which is which: it books every word,
in the order in which the source gives them. From any other source that agrees on these words the
same texts are drawn, and as many words are taken. -/
theorem words_are_accounted_for {settings : Settings} {patience : Nat} {demands : List Demand}
    {source after : Source} {outputs : List (List String)}
    (met : (drawAll settings patience demands).run source = some (outputs, after)) :
    ∃ (groups : List (List Expression)) (ledger : Ledger),
      groups.map List.length = demands.map Demand.count ∧
      outputs = List.zipWith Demand.texts demands groups ∧
      settings.BooksAll ledger groups.flatten ∧
      (∀ n entry, ledger[n]? = some entry → source.word (source.taken + n) = entry.word) ∧
      after = ⟨source.word, source.taken + ledger.length⟩ ∧
      ledger.length = (groups.flatten.map Expression.operations).sum +
        (groups.flatten.map fun e => e.literals.length).sum + tally .rejected ledger +
        (if settings.nesting.isOne then 0
          else (groups.flatten.map fun e => e.operandsBelow settings.levels 1).sum) ∧
      ∀ other : Source,
        (∀ n < ledger.length, other.word (other.taken + n) = source.word (source.taken + n)) →
        (drawAll settings patience demands).run other =
          some (outputs, ⟨other.word, other.taken + ledger.length⟩) := by
  obtain ⟨ledger, ⟨groups, lengths, texts, booked⟩, begins, yields⟩ :=
    drawAll_keeps settings patience demands source outputs after met
  obtain ⟨operators, literals, nesting⟩ := tally_booksAll booked
  have size : (ledger.map Entry.word).length = ledger.length := List.length_map Entry.word
  refine ⟨groups, ledger, lengths, texts, booked, ?_, ?_, ?_, ?_⟩
  · intro n entry found
    exact begins n entry.word (by rw [List.getElem?_map, found, Option.map_some])
  · have same := met.symm.trans (yields source begins)
    rw [Option.some_inj, Prod.mk.injEq, size] at same
    exact same.2
  · rw [length_eq_tally, operators, literals, nesting, Settings.decisions]
  · intro other agrees
    have begins' : other.Begins (ledger.map Entry.word) := by
      intro n word found
      obtain ⟨inside, -⟩ := List.getElem?_eq_some_iff.mp found
      rw [agrees n (by rwa [size] at inside)]
      exact begins n word found
    rw [yields other begins', size]
    rfl

/-- Three demands that take 18 words: one is rejected, and six decide about operands. -/
theorem words_are_accounted_for_of_three :
    let settings : Settings := { levels := 2 }
    let demands : List Demand := [.formula, .batch 1, .list 1]
    let source : Source := .listed
      [0x5555555555555555, 0, 0, 0x6000000000000000, 0, 0, 0xFFFFFFFFFFFFFFFF, 0,
        0, 0xFFFFFFFFFFFFFFFF, 0, 0xFFFFFFFFFFFFFFFF, 0,
        0, 0xFFFFFFFFFFFFFFFF, 0, 0xFFFFFFFFFFFFFFFF, 0]
    let outputs := [["(simplify (+ (- -10 -10) -10))"], ["(simplify (+ -10 -10))\n"],
      ["(simplify (+ -10 -10))"]]
    ∃ after, (drawAll settings 2 demands).run source = some (outputs, after) ∧ after.taken = 18 ∧
      ∃ (groups : List (List Expression)) (ledger : Ledger),
        outputs = List.zipWith Demand.texts demands groups ∧
        settings.BooksAll ledger groups.flatten ∧ ledger.length = 18 ∧
        18 = (groups.flatten.map Expression.operations).sum +
          (groups.flatten.map fun e => e.literals.length).sum + tally .rejected ledger +
          (groups.flatten.map fun e => e.operandsBelow 2 1).sum ∧
        ∀ other : Source, (∀ n < 18, other.word (other.taken + n) = source.word n) →
          (drawAll settings 2 demands).run other =
            some (outputs, ⟨other.word, other.taken + 18⟩) := by
  intro settings demands source outputs
  have result : ((drawAll settings 2 demands).run source).map (fun step => (step.1, step.2.taken)) =
      some (outputs, 18) := by decide +kernel
  obtain ⟨⟨_, after⟩, met, same⟩ := Option.map_eq_some_iff.mp result
  obtain ⟨rfl, taken⟩ := Prod.mk.inj same
  obtain ⟨groups, ledger, -, texts, booked, -, left, total, elsewhere⟩ :=
    words_are_accounted_for met
  have length : ledger.length = 18 := by
    rw [left] at taken
    exact (Nat.zero_add _).symm.trans taken
  have unsure : settings.nesting.isOne = false := by decide
  rw [length, unsure, if_neg Bool.false_ne_true] at total
  refine ⟨after, met, taken, groups, ledger, texts, booked, length, total, fun other agrees => ?_⟩
  rw [length] at elsewhere
  refine elsewhere other fun n inside => ?_
  rw [agrees n inside]
  exact congrArg source.word (Nat.zero_add n).symm

end PrefixArith.Formula
