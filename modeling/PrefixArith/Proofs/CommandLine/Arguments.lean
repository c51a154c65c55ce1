import PrefixArith.CommandLine.Options
import PrefixArith.Proofs.Decimal

/-!
# Arguments for generated formulas

Every seed, count and path can be asked for: the numbers in decimal, and the path behind an equals
sign, where it may start with a minus sign as well.
-/
namespace PrefixArith

namespace Decimal

theorem natOfChars?_of_digits {digits : List Char} (inside : Digits digits) :
    natOfChars? digits = some (natOfDigits digits) := by
  unfold natOfChars?
  split
  · have digit := inside.2 '+' List.mem_cons_self
    simp at digit
  · exact natOfDigits?_of_digits inside

/-- A number that fits is read back. -/
theorem uint64OfText?_ofNat {n : Nat} (fits : n < UInt64.size) :
    uint64OfText? (ofNat n) = some (UInt64.ofNat n) := by
  rw [uint64OfText?, ofNat, String.toList_ofList, natOfChars?_of_digits (digits_toDigits n),
    natOfDigits_toDigits]
  exact if_pos fits

end Decimal

namespace CommandLine

theorem isValue_ofNat (n : Nat) : isValue (Decimal.ofNat n) = true := by
  unfold isValue
  split
  · next first rest chars =>
    have digit := (Decimal.digits_toDigits n).2 '-' (by
      rw [Decimal.ofNat, String.toList_ofList] at chars
      rw [chars]
      exact List.mem_cons_self)
    simp at digit
  · rfl

/-- Behind the equals sign of a long option every path is its value. -/
theorem Argument.ofText_fuzzFile (path : String) :
    Argument.ofText ("--fuzz-file=" ++ path) = .ok (.setting .fuzzFile (some path)) := by
  have cut : ('f' :: "uzz-file=".toList ++ path.toList).span (· ≠ '=') =
      ("fuzz-file".toList, '=' :: path.toList) := rfl
  rw [ofText, String.toList_append]
  change longArgument _ ('f' :: "uzz-file=".toList ++ path.toList) = _
  rw [longArgument, cut]
  change Except.ok (Argument.setting .fuzzFile (some (String.ofList path.toList))) = _
  rw [String.ofList_toList]

/-- Arguments for a number of formulas of a seed. -/
def generating (seed : UInt64) (count : Nat) (path : String) (checked : Bool) : List String :=
  ["--seed", Decimal.ofNat seed.toNat, "--count", Decimal.ofNat count, "--fuzz-file=" ++ path] ++
    if checked then ["--checked"] else []

theorem Request.ofArguments_generating (seed : UInt64) {count : Nat} (fits : count < UInt64.size)
    {path : String} (filled : path ≠ "") (checked : Bool) :
    Request.ofArguments (generating seed count path checked) =
      .ok (.run ⟨none, some count, some path, some seed, checked⟩) := by
  have seedText : Decimal.uint64OfText? (Decimal.ofNat seed.toNat) = some seed := by
    rw [Decimal.uint64OfText?_ofNat seed.toNat_lt_size, UInt64.ofNat_toNat]
  have countText := Decimal.uint64OfText?_ofNat fits
  have word : (UInt64.ofNat count).toNat = count := UInt64.toNat_ofNat_of_lt fits
  have seedOption : Argument.ofText "--seed" = .ok (.setting .seed none) := by decide +kernel
  have countOption : Argument.ofText "--count" = .ok (.setting .count none) := by decide +kernel
  have checkedSwitch : Argument.ofText "--checked" = .ok (.switch .checked) := by decide +kernel
  have numbers (others : List String) :
      Request.ofArguments
        ("--seed" :: Decimal.ofNat seed.toNat :: "--count" :: Decimal.ofNat count ::
          others) =
        Request.ofArgumentsAfter { seed? := some seed, count? := some count } others := by
    simp [Request.ofArguments, Request.ofArgumentsAfter, Options.set, seedOption, countOption,
      isValue_ofNat, seedText, countText, -UInt64.toNat_ofNat', word]
  cases checked <;>
  · rw [generating, List.cons_append, List.cons_append, List.cons_append, List.cons_append, numbers]
    simp [Request.ofArgumentsAfter, Options.set, checkedSwitch, Argument.ofText_fuzzFile, filled]

end CommandLine

end PrefixArith
