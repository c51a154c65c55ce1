import PrefixArith.Proofs.Formula.Drawing

/-!
# Choices that are refused

Guarded choices refuse an empty range and a probability that does not lie between 0 and 1. Valid
settings never ask for one of these, so nothing changes with a guard (`drawBy_guarded`).
-/
namespace PrefixArith.Formula

open PrefixArith.Random

/-- The same choices, except that there is none from an empty range and none with a probability that
does not lie between 0 and 1. -/
def Choices.guarded (choices : Choices) : Choices where
  number range := if 0 < range then choices.number range else failure
  literal least greatest :=
    if least.toInt ≤ greatest.toInt then choices.literal least greatest else failure
  event probability := if probability.isProbability then choices.event probability else failure

variable {choices : Choices} {settings : Settings}

theorem operatorBy_guarded : operatorBy choices.guarded = operatorBy choices := by
  have some : 0 < 3 := by decide
  simp only [operatorBy, Choices.guarded, if_pos some]

theorem literalBy_guarded (ordered : settings.least.toInt ≤ settings.greatest.toInt) :
    literalBy choices.guarded settings = literalBy choices settings := by
  simp only [literalBy, Choices.guarded, if_pos ordered]

theorem operationBy_guarded (ordered : settings.least.toInt ≤ settings.greatest.toInt)
    (probable : settings.nesting.isProbability = true) (levels : Nat) :
    operationBy choices.guarded settings levels = operationBy choices settings levels := by
  have event : choices.guarded.event settings.nesting = choices.event settings.nesting :=
    if_pos probable
  induction levels with
  | zero => rw [operationBy, operationBy, applicationBy, applicationBy, operatorBy_guarded,
      literalBy_guarded ordered]
  | succ levels ih =>
    rw [operationBy, operationBy, applicationBy, applicationBy, operatorBy_guarded,
      literalBy_guarded ordered, ih, event]

/-- No guard stops a formula from being drawn with valid settings. -/
theorem drawBy_guarded (valid : settings.error? = none) :
    drawBy choices.guarded settings = drawBy choices settings := by
  obtain ⟨ordered, probable⟩ := Settings.error?_eq_none.mp valid
  rw [drawBy, operationBy_guarded ordered probable, drawBy]

/-- Where the range of literals is empty, a guard does. -/
example :
    ((drawBy (Choices.uniform 1).guarded { least := 1, greatest := 0 }).run (.listed [])).isNone =
    true := by decide +kernel

end PrefixArith.Formula
