import Mathlib.Data.List.TakeWhile
import PrefixArith.Operator
import PrefixArith.Proofs.Token.Scanning

/-!
# Spelling

Which texts the tokens of each kind have, and when the text of a token is scanned as that token
again. A text that goes on with a symbol, a space or not at all ends every run, so tokens written
with spaces between them do not merge.
-/
namespace PrefixArith

theorem Operator.utf8ByteSize_text (operator : Operator) : operator.text.utf8ByteSize = 1 := by
  cases operator <;> rfl

namespace Token

/-- The text is one that tokens of this kind have. -/
def Spelled (token : Token) : Prop :=
  match token.kind with
  | .paren => token.text = "(" ∨ token.text = ")"
  | .operator => token.text = "+" ∨ token.text = "*" ∨ token.text = "-"
  | .keyword => token.text ≠ "" ∧ ∀ c ∈ token.text.toList, c.isAlpha = true
  | .number => ∃ digits : List Char, (∀ c ∈ digits, c.isDigit = true) ∧
      (token.text = String.ofList ('-' :: digits) ∨ digits ≠ [] ∧ token.text = String.ofList digits)

/-- Every token of a line is spelled as its kind asks. -/
theorem spelled_of_mem_scan {line : String} {token : Token} (mem : token ∈ scan line) :
    token.Spelled := by
  obtain ⟨before, c, after, kind, -, role, rfl⟩ := mem_scan_iff.mp mem
  unfold startingAt
  generalize Place.opening.behind before = place at role ⊢
  have start := Place.role_eq_starts_iff.mp role
  unfold Spelled
  cases kind with
  | paren =>
    rcases start with rfl | rfl
    · exact .inl rfl
    · exact .inr rfl
  | operator =>
    rcases start with rfl | rfl | ⟨rfl, rfl⟩
    · exact .inl rfl
    · exact .inr (.inl rfl)
    · exact .inr (.inr rfl)
  | number =>
    rcases start with ⟨rfl, signs⟩ | ⟨digit, -⟩
    · have follows : place.after '-' = .digits := Place.after_eq_digits_iff.mpr (.inr ⟨rfl, signs⟩)
      refine ⟨Place.digits.run after, fun d => Place.isDigit_of_mem_run, .inl ?_⟩
      rw [follows]
    · have follows : place.after c = .digits := Place.after_of_isDigit place digit
      refine ⟨c :: Place.digits.run after, ?_, .inr ⟨List.cons_ne_nil _ _, ?_⟩⟩
      · rintro d (_ | ⟨_, mem⟩)
        · exact digit
        · exact Place.isDigit_of_mem_run mem
      · rw [follows]
  | keyword =>
    obtain ⟨letter, -⟩ := start
    have follows : place.after c = .letters := Place.after_of_isAlpha place letter
    refine ⟨by simp, ?_⟩
    intro d mem
    rw [follows, String.toList_ofList] at mem
    rcases List.mem_cons.mp mem with rfl | mem
    · exact letter
    · exact Place.isAlpha_of_mem_run mem

theorem spelled_operator (operator : Operator) (offset : Nat) :
    Spelled ⟨.operator, operator.text, offset⟩ := by
  cases operator with
  | add => exact .inl rfl
  | multiply => exact .inr (.inl rfl)
  | subtract => exact .inr (.inr rfl)

theorem spelled_simplify (offset : Nat) : Spelled ⟨.keyword, "simplify", offset⟩ := by
  have nonempty : "simplify" ≠ "" := by decide
  have letters : "simplify".toList.all Char.isAlpha = true := by decide
  exact ⟨nonempty, List.all_eq_true.mp letters⟩

/-- The text is empty or begins with a character that goes on with no run. -/
def Stops (text : List Char) : Prop := ∀ c ∈ text.head?, c.isDigit = false ∧ c.isAlpha = false

theorem stops_cons {c : Char} (rest : List Char) (stops : c.isDigit = false ∧ c.isAlpha = false) :
    Stops (c :: rest) := by
  rintro _ ⟨⟩
  exact stops

theorem Stops.run_eq {text : List Char} (stops : Stops text) (place : Place) :
    place.run text = [] := by
  cases text with
  | nil => exact Place.run_nil place
  | cons c rest =>
    obtain ⟨digit, letter⟩ := stops c rfl
    rw [Place.run_cons, if_neg]
    simp [Place.role_eq_continues_iff, digit, letter]

/-! ## Scanning the text of one token -/

/-- No token starts in a text that is owed to the token in progress. -/
theorem scanFrom_of_run {place : Place} {text : List Char} (owed : place.run text = text)
    (offset : Nat) : scanFrom place offset text = [] := by
  induction text generalizing place offset with
  | nil => rfl
  | cons c rest ih =>
    rw [Place.run_cons] at owed
    split at owed
    · next continues =>
      rw [scanFrom_of_continues continues]
      exact ih (List.cons.inj owed).2 _
    · cases owed

theorem scanFrom_alone {place : Place} {c : Char} {rest : List Char} {kind : Kind}
    (role : place.role c = .starts kind) (owed : (place.after c).run rest = rest) (offset : Nat) :
    scanFrom place offset (c :: rest) = [⟨kind, String.ofList (c :: rest), offset⟩] := by
  rw [scanFrom_of_starts role, owed, scanFrom_of_run owed]

/-- A minus sign at the place makes a token of the kind that this one has. -/
def Suits (token : Token) (place : Place) : Prop :=
  token.text.toList.head? = some '-' → (token.kind = .operator ↔ place = .opening)

theorem Spelled.starts {token : Token} (spelled : token.Spelled) {place : Place}
    (plain : place = .opening ∨ place = .elsewhere) (suits : token.Suits place) :
    ∃ c rest, token.text.toList = c :: rest ∧ place.role c = .starts token.kind ∧
      (place.after c).run rest = rest := by
  obtain ⟨kind, text, offset⟩ := token
  unfold Spelled at spelled
  unfold Suits at suits
  have noDigits : place ≠ .digits := by rcases plain with rfl | rfl <;> simp
  have noLetters : place ≠ .letters := by rcases plain with rfl | rfl <;> simp
  cases kind with
  | paren =>
    rcases spelled with rfl | rfl
    · exact ⟨'(', [], by simp, by simp [Place.role], Place.run_nil _⟩
    · exact ⟨')', [], by simp, by simp [Place.role], Place.run_nil _⟩
  | operator =>
    rcases spelled with rfl | rfl | rfl
    · exact ⟨'+', [], by simp, by simp [Place.role], Place.run_nil _⟩
    · exact ⟨'*', [], by simp, by simp [Place.role], Place.run_nil _⟩
    · have opens : place = .opening := (suits (by simp)).mp rfl
      exact ⟨'-', [], by simp, by simp [Place.role, opens], Place.run_nil _⟩
  | keyword =>
    obtain ⟨nonempty, letters⟩ := spelled
    obtain ⟨c, rest, same⟩ : ∃ c rest, text.toList = c :: rest :=
      List.exists_cons_of_ne_nil (by simpa using nonempty)
    simp only [same, List.forall_mem_cons] at letters
    refine ⟨c, rest, same, ?_, ?_⟩
    · rw [Place.role_of_isAlpha place letters.1, if_neg noLetters]
    · rw [Place.after_of_isAlpha place letters.1]
      exact List.takeWhile_eq_self_iff.mpr letters.2
  | number =>
    obtain ⟨digits, inside, rfl | ⟨nonempty, rfl⟩⟩ := spelled
    · have signs : place ≠ .opening := by simpa using suits (by simp)
      refine ⟨'-', digits, String.toList_ofList, by simp [Place.role, signs], ?_⟩
      rw [Place.after_eq_digits_iff.mpr (.inr ⟨rfl, signs⟩)]
      exact List.takeWhile_eq_self_iff.mpr inside
    · obtain ⟨c, rest, rfl⟩ := List.exists_cons_of_ne_nil nonempty
      rw [List.forall_mem_cons] at inside
      refine ⟨c, rest, String.toList_ofList, ?_, ?_⟩
      · rw [Place.role_of_isDigit place inside.1, if_neg noDigits]
      · rw [Place.after_of_isDigit place inside.1]
        exact List.takeWhile_eq_self_iff.mpr inside.2

/-- The text of a token is scanned as that token wherever no run is going on, if a minus sign there
has the part that it has in the token. -/
theorem scanFrom_text {token : Token} (spelled : token.Spelled) {place : Place}
    (plain : place = .opening ∨ place = .elsewhere) (suits : token.Suits place) (offset : Nat) :
    scanFrom place offset token.text.toList = [⟨token.kind, token.text, offset⟩] := by
  obtain ⟨c, rest, same, role, owed⟩ := spelled.starts plain suits
  rw [same, scanFrom_alone role owed, ← same, String.ofList_toList]

end Token

end PrefixArith
