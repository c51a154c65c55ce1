import Mathlib.Tactic.SplitIfs
import Mathlib.Tactic.Tauto
import PrefixArith.Token.Scan

/-!
# Places in a line

A scan keeps nothing of the characters before it but a `Place`. Here it is said what a place tells
of them, what each class of characters does at a place, and which characters are still owed to the
token in progress (`Place.run_cons`).
-/
namespace PrefixArith.Token

/-- The characters that make a token of their own or sign one. -/
def symbols : List Char := ['(', ')', '+', '*', '-']

/-- The characters that belong to tokens; all others separate. -/
def Recognised (c : Char) : Prop := c ∈ symbols ∨ c.isDigit = true ∨ c.isAlpha = true

/-- Whether a minus sign after the given characters subtracts: at the start of the line and directly
after an opening parenthesis. -/
def Opens (before : List Char) : Prop := before = [] ∨ before.getLast? = some '('

theorem isDigit_iff_toNat {c : Char} : c.isDigit = true ↔ 48 ≤ c.toNat ∧ c.toNat ≤ 57 :=
  Char.isDigit_iff_toNat

theorem isAlpha_iff_toNat {c : Char} :
    c.isAlpha = true ↔ (65 ≤ c.toNat ∧ c.toNat ≤ 90) ∨ (97 ≤ c.toNat ∧ c.toNat ≤ 122) := by
  have upper : c.isUpper = true ↔ 65 ≤ c.toNat ∧ c.toNat ≤ 90 := decide_eq_true_iff
  have lower : c.isLower = true ↔ 97 ≤ c.toNat ∧ c.toNat ≤ 122 :=
    Bool.and_eq_true_iff.trans (and_congr decide_eq_true_iff decide_eq_true_iff)
  rw [← upper, ← lower]
  exact Bool.or_eq_true_iff

theorem isDigit_eq_false_of_isAlpha {c : Char} (letter : c.isAlpha = true) : c.isDigit = false := by
  rw [isAlpha_iff_toNat] at letter
  rw [← Bool.not_eq_true, isDigit_iff_toNat]
  omega

theorem isAlpha_eq_false_of_isDigit {c : Char} (digit : c.isDigit = true) : c.isAlpha = false := by
  cases letter : c.isAlpha with
  | false => rfl
  | true =>
    rw [isDigit_eq_false_of_isAlpha letter] at digit
    cases digit

theorem mem_symbols {c : Char} :
    c ∈ symbols ↔ c = '(' ∨ c = ')' ∨ c = '+' ∨ c = '*' ∨ c = '-' := by
  simp [symbols]

/-- What holds of the five symbols holds of each of them. -/
theorem symbol_cases {p : Char → Prop} {c : Char} (symbol : c ∈ symbols)
    (each : p '(' ∧ p ')' ∧ p '+' ∧ p '*' ∧ p '-') : p c := by
  obtain ⟨lparen, rparen, plus, times, minus⟩ := each
  rcases mem_symbols.mp symbol with rfl | rfl | rfl | rfl | rfl <;> assumption

/-- No symbol belongs to a run of digits or letters. -/
theorem symbols_apart {c : Char} (symbol : c ∈ symbols) :
    c.isDigit = false ∧ c.isAlpha = false := by
  apply symbol_cases symbol
  decide

theorem ne_symbols {c : Char} (apart : c ∉ symbols) :
    c ≠ '(' ∧ c ≠ ')' ∧ c ≠ '+' ∧ c ≠ '*' ∧ c ≠ '-' := by
  simpa [symbols] using apart

theorem notMem_symbols_of_isDigit {c : Char} (digit : c.isDigit = true) : c ∉ symbols := by
  intro symbol
  simp [symbols_apart symbol] at digit

theorem notMem_symbols_of_isAlpha {c : Char} (letter : c.isAlpha = true) : c ∉ symbols := by
  intro symbol
  simp [symbols_apart symbol] at letter

theorem apart_of_not_recognised {c : Char} (other : ¬ Recognised c) :
    (c ≠ '(' ∧ c ≠ ')' ∧ c ≠ '+' ∧ c ≠ '*' ∧ c ≠ '-') ∧ c.isDigit = false ∧ c.isAlpha = false := by
  simp only [Recognised, not_or, Bool.not_eq_true] at other
  exact ⟨ne_symbols other.1, other.2⟩

namespace Place

/-- The place behind the given characters. -/
def behind (place : Place) (chars : List Char) : Place := chars.foldl after place

@[simp] theorem behind_nil (place : Place) : place.behind [] = place := rfl

@[simp] theorem behind_cons (place : Place) (c : Char) (rest : List Char) :
    place.behind (c :: rest) = (place.after c).behind rest := rfl

@[simp] theorem behind_append (place : Place) (a b : List Char) :
    place.behind (a ++ b) = (place.behind a).behind b := List.foldl_append

/-! ## What a character does, by its class -/

section Classes
variable {c : Char} (place : Place)

theorem role_of_isDigit (digit : c.isDigit = true) :
    place.role c = if place = .digits then .continues else .starts .number := by
  simp [role, ne_symbols (notMem_symbols_of_isDigit digit), digit]

theorem role_of_isAlpha (letter : c.isAlpha = true) :
    place.role c = if place = .letters then .continues else .starts .keyword := by
  simp [role, ne_symbols (notMem_symbols_of_isAlpha letter), letter,
    isDigit_eq_false_of_isAlpha letter]

theorem role_of_not_recognised (other : ¬ Recognised c) : place.role c = .separates := by
  simp [role, apart_of_not_recognised other]

theorem after_of_isDigit (digit : c.isDigit = true) : place.after c = .digits := by
  simp [after, ne_symbols (notMem_symbols_of_isDigit digit), digit]

theorem after_of_isAlpha (letter : c.isAlpha = true) : place.after c = .letters := by
  simp [after, ne_symbols (notMem_symbols_of_isAlpha letter), letter,
    isDigit_eq_false_of_isAlpha letter]

theorem after_of_not_recognised (other : ¬ Recognised c) : place.after c = .elsewhere := by
  simp [after, apart_of_not_recognised other]

end Classes

theorem recognised_cases (c : Char) :
    c ∈ symbols ∨ c.isDigit = true ∨ c.isAlpha = true ∨ ¬ Recognised c := by
  unfold Recognised
  tauto

theorem after_eq_opening_iff {place : Place} {c : Char} : place.after c = .opening ↔ c = '(' := by
  rcases recognised_cases c with symbol | digit | letter | other
  · apply symbol_cases symbol
    cases place <;> decide
  · simp [after_of_isDigit place digit, ne_symbols (notMem_symbols_of_isDigit digit)]
  · simp [after_of_isAlpha place letter, ne_symbols (notMem_symbols_of_isAlpha letter)]
  · simp [after_of_not_recognised place other, apart_of_not_recognised other]

theorem after_eq_digits_iff {place : Place} {c : Char} :
    place.after c = .digits ↔ c.isDigit = true ∨ (c = '-' ∧ place ≠ .opening) := by
  rcases recognised_cases c with symbol | digit | letter | other
  · apply symbol_cases symbol
    cases place <;> decide
  · simp [after_of_isDigit place digit, digit]
  · simp [after_of_isAlpha place letter, isDigit_eq_false_of_isAlpha letter,
      ne_symbols (notMem_symbols_of_isAlpha letter)]
  · simp [after_of_not_recognised place other, apart_of_not_recognised other]

theorem after_eq_letters_iff {place : Place} {c : Char} :
    place.after c = .letters ↔ c.isAlpha = true := by
  rcases recognised_cases c with symbol | digit | letter | other
  · apply symbol_cases symbol
    cases place <;> decide
  · simp [after_of_isDigit place digit, isAlpha_eq_false_of_isDigit digit]
  · simp [after_of_isAlpha place letter, letter]
  · simp [after_of_not_recognised place other, apart_of_not_recognised other]

theorem role_eq_continues_iff {place : Place} {c : Char} :
    place.role c = .continues ↔
      (place = .digits ∧ c.isDigit = true) ∨ (place = .letters ∧ c.isAlpha = true) := by
  rcases recognised_cases c with symbol | digit | letter | other
  · apply symbol_cases symbol
    cases place <;> decide
  · rw [role_of_isDigit place digit]
    split_ifs with within <;> simp [within, digit, isAlpha_eq_false_of_isDigit digit]
  · rw [role_of_isAlpha place letter]
    split_ifs with within <;> simp [within, letter, isDigit_eq_false_of_isAlpha letter]
  · simp [role_of_not_recognised place other, apart_of_not_recognised other]

/-- Which characters start a token of each kind. -/
theorem role_eq_starts_iff {place : Place} {c : Char} {kind : Kind} :
    place.role c = .starts kind ↔
      match kind with
      | .paren => c = '(' ∨ c = ')'
      | .operator => c = '+' ∨ c = '*' ∨ (c = '-' ∧ place = .opening)
      | .number => (c = '-' ∧ place ≠ .opening) ∨ (c.isDigit = true ∧ place ≠ .digits)
      | .keyword => c.isAlpha = true ∧ place ≠ .letters := by
  rcases recognised_cases c with symbol | digit | letter | other
  · apply symbol_cases symbol
    cases place <;> cases kind <;> decide
  · have apart := ne_symbols (notMem_symbols_of_isDigit digit)
    rw [role_of_isDigit place digit]
    by_cases within : place = .digits <;> cases kind <;>
      simp [within, apart, digit, isAlpha_eq_false_of_isDigit digit]
  · have apart := ne_symbols (notMem_symbols_of_isAlpha letter)
    rw [role_of_isAlpha place letter]
    by_cases within : place = .letters <;> cases kind <;>
      simp [within, apart, letter, isDigit_eq_false_of_isAlpha letter]
  · rw [role_of_not_recognised place other]
    cases kind <;> simp [apart_of_not_recognised other]

theorem role_ne_separates_of_symbol {place : Place} {c : Char} (symbol : c ∈ symbols) :
    place.role c ≠ .separates := by
  apply symbol_cases symbol
  cases place <;> decide

theorem role_eq_separates_iff {place : Place} {c : Char} :
    place.role c = .separates ↔ ¬ Recognised c := by
  constructor
  · intro separates known
    rcases known with symbol | digit | letter
    · exact role_ne_separates_of_symbol symbol separates
    · rw [role_of_isDigit place digit] at separates
      split_ifs at separates
    · rw [role_of_isAlpha place letter] at separates
      split_ifs at separates
  · exact role_of_not_recognised place

/-! ## What a character does at the start of a line -/

section Opening
variable {place : Place} {c : Char}

/-- At the start of a line every character is at a boundary. -/
theorem role_opening_ne_continues : opening.role c ≠ .continues := by
  simp [role_eq_continues_iff]

/-- A character that starts the same kinds of tokens as at the start of a line has the same role. -/
theorem role_eq_opening_of_starts
    (each : ∀ kind, place.role c = .starts kind ↔ opening.role c = .starts kind) :
    place.role c = opening.role c := by
  cases role : opening.role c with
  | starts kind => exact (each kind).mpr role
  | continues => exact absurd role role_opening_ne_continues
  | separates => exact role_of_not_recognised place (role_eq_separates_iff.mp role)

/-- Where a character has another role than at the start of a line. -/
theorem role_eq_opening_iff :
    place.role c = opening.role c ↔
      ¬ ((c.isDigit = true ∧ place = .digits) ∨ (c.isAlpha = true ∧ place = .letters) ∨
        (c = '-' ∧ place ≠ .opening)) := by
  rcases recognised_cases c with symbol | digit | letter | other
  · apply symbol_cases symbol
    cases place <;> decide
  · have apart := ne_symbols (notMem_symbols_of_isDigit digit)
    rw [role_of_isDigit place digit, role_of_isDigit opening digit]
    simp [digit, isAlpha_eq_false_of_isDigit digit, apart]
  · have apart := ne_symbols (notMem_symbols_of_isAlpha letter)
    rw [role_of_isAlpha place letter, role_of_isAlpha opening letter]
    simp [letter, isDigit_eq_false_of_isAlpha letter, apart]
  · rw [role_of_not_recognised place other, role_of_not_recognised opening other]
    simp [apart_of_not_recognised other]

/-- Only a minus sign makes the next place depend on its own, and its role does as well. -/
theorem after_eq_opening_of_role (same : place.role c = opening.role c) :
    place.after c = opening.after c := by
  by_cases minus : c = '-'
  · subst minus
    have subtracts : place.role '-' = .starts .operator := same.trans (by simp [role])
    have opens : place = .opening := by simpa [role_eq_starts_iff] using subtracts
    rw [opens]
  · simp [after, minus]

end Opening

/-! ## What is owed to the token in progress -/

/-- The characters still owed to the token in progress are those that continue it. -/
theorem run_cons (place : Place) (c : Char) (rest : List Char) :
    place.run (c :: rest) =
      if place.role c = .continues then c :: (place.after c).run rest else [] := by
  cases place with
  | opening => simp [run, role_eq_continues_iff]
  | elsewhere => simp [run, role_eq_continues_iff]
  | digits =>
    by_cases digit : c.isDigit = true
    · simp [run, role_eq_continues_iff, digit, after_of_isDigit]
    · simp [run, role_eq_continues_iff, digit]
  | letters =>
    by_cases letter : c.isAlpha = true
    · simp [run, role_eq_continues_iff, letter, after_of_isAlpha]
    · simp [run, role_eq_continues_iff, letter]

@[simp] theorem run_nil (place : Place) : place.run [] = [] := by
  cases place <;> rfl

theorem isDigit_of_mem_run {c : Char} {rest : List Char} (mem : c ∈ digits.run rest) :
    c.isDigit = true := List.all_eq_true.mp List.all_takeWhile c mem

theorem isAlpha_of_mem_run {c : Char} {rest : List Char} (mem : c ∈ letters.run rest) :
    c.isAlpha = true := List.all_eq_true.mp List.all_takeWhile c mem

/-- What is owed to the token in progress lies in the first of two texts if it ends there. -/
theorem run_append {place : Place} {a b : List Char} (stops : (place.behind a).run b = []) :
    place.run (a ++ b) = place.run a := by
  induction a generalizing place with
  | nil => rw [List.nil_append, run_nil, ← behind_nil place, stops]
  | cons c rest ih => rw [List.cons_append, run_cons, run_cons, ih stops]

theorem run_after_of_separates {place : Place} {c : Char} (role : place.role c = .separates)
    (rest : List Char) : (place.after c).run rest = [] := by
  rw [after_of_not_recognised place (role_eq_separates_iff.mp role)]
  rfl

theorem run_isPrefix (place : Place) (rest : List Char) : place.run rest <+: rest := by
  cases place with
  | opening | elsewhere => exact List.nil_prefix
  | digits | letters => exact List.takeWhile_prefix _

/-- The place behind a character tells of the characters before the next one. -/
theorem behind_eq_opening_iff {before : List Char} :
    Place.opening.behind before = .opening ↔ Opens before := by
  rcases List.eq_nil_or_concat before with rfl | ⟨earlier, c, rfl⟩
  · simp [Opens]
  · simp [Opens, after_eq_opening_iff]

end Place

end PrefixArith.Token
