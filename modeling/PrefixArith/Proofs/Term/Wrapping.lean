import Mathlib.Data.Int.ModEq
import PrefixArith.Proofs.Term.Exact

/-!
# Wrapping evaluation

Words with operations that wrap around are the integers modulo the number of words, so wrapping
evaluation gives the one word congruent to the exact value, however often operations on the way wrap
around. Whether it gives a word at all depends on the token of each node by itself.
-/
namespace PrefixArith

/-- The only word congruent to an integer is that integer, wrapped around. -/
theorem Decimal.toInt_modEq_iff {w : Int64} {z : Int} :
    w.toInt ≡ z [ZMOD 18446744073709551616] ↔ w = Int64.ofInt z := by
  constructor
  · intro congruent
    apply Int64.toInt_inj.mp
    calc w.toInt
        = w.toInt.bmod 18446744073709551616 := w.toInt_bmod.symm
      _ = (w.toInt % 18446744073709551616).bmod 18446744073709551616 := (Int.emod_bmod _ _).symm
      _ = (z % 18446744073709551616).bmod 18446744073709551616 := by rw [congruent]
      _ = z.bmod 18446744073709551616 := Int.emod_bmod z _
      _ = (Int64.ofInt z).toInt := Int64.toInt_ofInt.symm
  · rintro rfl
    rw [Int64.toInt_ofInt]
    exact Int.bmod_emod

theorem Operator.isSome_ofText?_iff {text : String} :
    (Operator.ofText? text).isSome ↔ text ∈ ["+", "-", "*"] := by
  unfold Operator.ofText?
  split_ifs <;> simp [*]

namespace Term
open Decimal (Fits Numeral)

/-! ## Which terms have a value -/

/-- What `Supported` asks of a node by itself: a numeral of a word, the keyword or one of the
operators. -/
def Known : Term → Prop
  | .literal token => ∃ z, Numeral z token.text ∧ Fits z
  | .keyword token _ => token.text = "simplify"
  | .operation token _ _ => (Operator.ofText? token.text).isSome

theorem supported_iff {term : Term} : term.Supported ↔ ∀ node ∈ term.subterms, node.Known := by
  induction term with
  | literal token =>
    simp only [Supported, Decimal.intOfChars?_eq_some_iff, subterms, List.forall_mem_singleton,
      Known]
  | keyword token operand ih => simp only [Supported, subterms, List.forall_mem_cons, Known, ih]
  | operation token left right ihl ihr =>
    simp only [Supported, subterms, List.forall_mem_cons, List.forall_mem_append, Known, ihl, ihr]

theorem known_of_literalValue {token : Token} {v : Int64}
    (result : literalValue token.text token.offset = .ok v) : (literal token).Known := by
  cases read : Decimal.intOfChars? token.text.toList with
  | none => simp [literalValue, Decimal.int64OfText?, read] at result
  | some z =>
    refine ⟨z, Decimal.intOfChars?_eq_some_iff.mp read, ?_⟩
    by_contra beyond
    simp [literalValue, Decimal.int64OfText?, read, beyond] at result

theorem known_of_keywordValue {token : Token} {operand : Term} {a v : Int64}
    (result : keywordValue token a = .ok v) : (keyword token operand).Known := by
  by_contra other
  rw [keywordValue, if_neg (show ¬ token.text = "simplify" from other)] at result
  cases result

theorem known_of_operationValue {mode : Overflow} {token : Token} {left right : Term}
    {a b v : Int64}
    (result : operationValue mode token a b = .ok v) : (operation token left right).Known := by
  cases known : Operator.ofText? token.text with
  | none => simp [operationValue, known] at result
  | some operator => simp [Known, known]

/-- A term with a value is supported: every node has contributed. -/
theorem known_of_value {mode : Overflow} {term : Term} {v : Int64}
    (success : term.value mode = .ok v) :
    ∀ node ∈ term.subterms, node.Known := by
  induction term generalizing v with
  | literal token =>
    rw [subterms, List.forall_mem_singleton]
    exact known_of_literalValue success
  | keyword token operand ih =>
    obtain ⟨a, only, result⟩ := value_keyword_eq_ok success
    rw [subterms, List.forall_mem_cons]
    exact ⟨known_of_keywordValue result, ih only⟩
  | operation token left right ihl ihr =>
    obtain ⟨a, b, first, second, result⟩ := value_operation_eq_ok success
    rw [subterms, List.forall_mem_cons, List.forall_mem_append]
    exact ⟨known_of_operationValue result, ihl first, ihr second⟩

/-- The nodes of a term are known if its literals, its keywords and its operations are. -/
theorem forall_known_iff {term : Term} :
    (∀ node ∈ term.subterms, node.Known) ↔
      (∀ token, literal token ∈ term.subterms → ∃ z, Numeral z token.text ∧ Fits z) ∧
      (∀ token operand, keyword token operand ∈ term.subterms → token.text = "simplify") ∧
      ∀ token left right, operation token left right ∈ term.subterms →
        token.text ∈ ["+", "-", "*"] := by
  constructor
  · intro known
    exact ⟨fun token mem => known _ mem, fun token operand mem => known _ mem,
      fun token left right mem => Operator.isSome_ofText?_iff.mp (known _ mem)⟩
  · rintro ⟨literals, keywords, operations⟩ node mem
    cases node with
    | literal token => exact literals token mem
    | keyword token operand => exact keywords token operand mem
    | operation token left right =>
      exact Operator.isSome_ofText?_iff.mpr (operations token left right mem)

theorem exists_value_wrapping_iff {term : Term} :
    (∃ v, term.value .wrapping = .ok v) ↔ ∀ node ∈ term.subterms, node.Known := by
  constructor
  · rintro ⟨v, success⟩
    exact known_of_value success
  · intro known
    exact ⟨_, value_wrapping (supported_iff.mpr known)⟩

/-! ## Which value it is -/

/-- The term stands for `z` in unbounded integers. -/
inductive Denotes : Term → Int → Prop
  | literal {token : Token} {z : Int} (numeral : Numeral z token.text) : Denotes (.literal token) z
  | simplify {token : Token} {operand : Term} {z : Int} (text : token.text = "simplify")
      (only : Denotes operand z) : Denotes (.keyword token operand) z
  | sum {token : Token} {left right : Term} {m n : Int} (text : token.text = "+")
      (first : Denotes left m) (second : Denotes right n) :
      Denotes (.operation token left right) (m + n)
  | difference {token : Token} {left right : Term} {m n : Int} (text : token.text = "-")
      (first : Denotes left m) (second : Denotes right n) :
      Denotes (.operation token left right) (m - n)
  | product {token : Token} {left right : Term} {m n : Int} (text : token.text = "*")
      (first : Denotes left m) (second : Denotes right n) :
      Denotes (.operation token left right) (m * n)

theorem Denotes.exact_eq {term : Term} {z : Int} (denotes : term.Denotes z) : term.exact = z := by
  induction denotes with
  | literal numeral => rw [exact, Decimal.intOfChars?_eq_some_iff.mpr numeral, Option.getD_some]
  | simplify _ _ ih => exact ih
  | sum text _ _ ihl ihr =>
    rw [exact, text, ← ihl, ← ihr]
    rfl
  | difference text _ _ ihl ihr =>
    rw [exact, text, ← ihl, ← ihr]
    rfl
  | product text _ _ ihl ihr =>
    rw [exact, text, ← ihl, ← ihr]
    rfl

theorem denotes_exact {term : Term} (supported : term.Supported) : term.Denotes term.exact := by
  induction term with
  | literal token =>
    obtain ⟨z, read, -⟩ := supported
    rw [exact, read]
    exact .literal (Decimal.intOfChars?_eq_some_iff.mp read)
  | keyword token operand ih => exact .simplify supported.1 (ih supported.2)
  | operation token left right ihl ihr =>
    obtain ⟨known, supportedLeft, supportedRight⟩ := supported
    have text := Operator.isSome_ofText?_iff.mp known
    simp only [List.mem_cons, List.not_mem_nil, or_false] at text
    rcases text with plus | minus | times
    · rw [exact, plus]
      exact .sum plus (ihl supportedLeft) (ihr supportedRight)
    · rw [exact, minus]
      exact .difference minus (ihl supportedLeft) (ihr supportedRight)
    · rw [exact, times]
      exact .product times (ihl supportedLeft) (ihr supportedRight)

/-- Wrapping evaluation gives a term a value exactly if each of its literals is the numeral of a
word, each keyword is `simplify` and each operator is one of the three. The value is then the one
word that is congruent, modulo the number of words, to what the term stands for in unbounded
integers. -/
theorem wrapping_is_arithmetic_modulo (term : Term) :
    ((∃ v, term.value .wrapping = .ok v) ↔
      (∀ token, literal token ∈ term.subterms →
        ∃ z, Numeral z token.text ∧ -9223372036854775808 ≤ z ∧ z ≤ 9223372036854775807) ∧
      (∀ token operand, keyword token operand ∈ term.subterms → token.text = "simplify") ∧
      ∀ token left right, operation token left right ∈ term.subterms →
        token.text ∈ ["+", "-", "*"]) ∧
    ∀ v, term.value .wrapping = .ok v →
      ∃ z, term.Denotes z ∧ (∀ other, term.Denotes other → other = z) ∧
        ∀ w : Int64, w.toInt ≡ z [ZMOD 18446744073709551616] ↔ w = v := by
  constructor
  · rw [exists_value_wrapping_iff, forall_known_iff]
    simp only [Decimal.fits_iff]
  · intro v success
    have supported := supported_iff.mpr (known_of_value success)
    refine ⟨term.exact, denotes_exact supported, fun other denotes => denotes.exact_eq.symm, ?_⟩
    intro w
    rw [value_wrapping supported, Except.ok.injEq] at success
    rw [Decimal.toInt_modEq_iff, success]

/-- Three operations that all overflow: the cube of the greatest word, less minus seven. -/
theorem wrapping_is_arithmetic_modulo_of_cube :
    let greatest : Term := .literal ⟨.number, "+9223372036854775807", 8⟩
    let square : Term := .operation ⟨.operator, "*", 5⟩ greatest greatest
    let cube : Term := .operation ⟨.operator, "*", 3⟩ greatest square
    let difference : Term := .operation ⟨.operator, "-", 1⟩ cube (.literal ⟨.number, "-007", 50⟩)
    difference.value .wrapping = .ok (-9223372036854775802) ∧
      difference.Denotes 784637716923335095224261902710254454442933591094742482950 ∧
      ∀ w : Int64, w.toInt ≡ 784637716923335095224261902710254454442933591094742482950
          [ZMOD 18446744073709551616] ↔ w = -9223372036854775802 := by
  intro greatest square cube difference
  have result : difference.value .wrapping = .ok (-9223372036854775802) := by decide +kernel
  have first : greatest.Denotes 9223372036854775807 :=
    .literal (Decimal.intOfChars?_eq_some_iff.mp (by decide +kernel))
  have second : (Term.literal ⟨.number, "-007", 50⟩).Denotes (-7) :=
    .literal (Decimal.intOfChars?_eq_some_iff.mp (by decide +kernel))
  have denotes : difference.Denotes 784637716923335095224261902710254454442933591094742482950 :=
    .difference rfl (.product rfl first (.product rfl first first)) second
  obtain ⟨z, -, only, unique⟩ := (wrapping_is_arithmetic_modulo difference).2 _ result
  rw [← only _ denotes] at unique
  exact ⟨result, denotes, unique⟩

end Term

end PrefixArith
