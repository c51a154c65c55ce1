import PrefixArith.Proofs.Term.Reading
import PrefixArith.Proofs.Token.Pieces

/-!
# Reading a written term

The written form of a term has its tokens in pre-order, with spaces and parentheses between them, so
a scan finds them again at the places where they are written. Only the first character of a line
needs care: a minus sign there subtracts, so a lone literal that begins with one is not read back.
-/
namespace PrefixArith.Term
open Token (scanFrom scan significant Place)

/-- The term with its tokens at the places that they have in its written form, which starts at
`offset`. -/
def printedAt (offset : Nat) : Term → Term
  | .literal token => .literal (token.relocate fun _ => offset)
  | .keyword token operand =>
    .keyword (token.relocate fun _ => offset + 1)
      (operand.printedAt (offset + token.text.utf8ByteSize + 2))
  | .operation token left right =>
    .operation (token.relocate fun _ => offset + 1)
      (left.printedAt (offset + token.text.utf8ByteSize + 2))
      (right.printedAt (offset + token.text.utf8ByteSize + left.text.utf8ByteSize + 3))

/-- The term is a literal whose text begins with a minus sign. -/
def StartsWithMinus : Term → Prop
  | .literal token => token.text.toList.head? = some '-'
  | .keyword _ _ | .operation _ _ _ => False

theorem printedAt_eqUpToOffsets (term : Term) (offset : Nat) :
    (term.printedAt offset).EqUpToOffsets term := by
  unfold EqUpToOffsets
  induction term generalizing offset with
  | literal token => rfl
  | keyword token operand ih =>
    rw [printedAt, relocate, relocate, ih]
    rfl
  | operation token left right ihl ihr =>
    rw [printedAt, relocate, relocate, ihl, ihr]
    rfl

/-! ## Scanning a written form -/

/-- A scan of a written form finds the tokens of the term at the places where they are written. -/
theorem significant_scanFrom_text {term : Term} (formed : term.Formed)
    (spelled : ∀ token ∈ term.tokens, token.Spelled) {place : Place}
    (plain : place = .opening ∨ place = .elsewhere)
    (signs : place = .opening → ¬ term.StartsWithMinus) (offset : Nat) :
    significant (scanFrom place offset term.text.toList) = (term.printedAt offset).tokens := by
  have inside (operand : Term) : Place.elsewhere = .opening → ¬ operand.StartsWithMinus := by
    intro opens
    cases opens
  induction term generalizing place offset with
  | literal token =>
    have kind : token.kind = .number := formed
    have suits : token.Suits place := by
      intro minus
      have closed : place ≠ .opening := fun opens => signs opens minus
      simp [kind, closed]
    have solid : token.isParen = false := by simp [Token.isParen, kind]
    rw [text, Token.scanFrom_text (spelled token (by simp)) plain suits, printedAt, tokens_literal]
    exact Token.significant_singleton solid
  | keyword token operand ih =>
    obtain ⟨kind, formed⟩ := formed
    rw [tokens_keyword, List.forall_mem_cons] at spelled
    have written : (keyword token operand).text.toList =
        '(' :: (token.text.toList ++ ' ' :: (operand.text.toList ++ [')'])) := by simp [text]
    rw [written, Token.significant_scanFrom_application spelled.1 (.inr kind),
      Token.scanFrom_text_append Token.stops_rparen, Token.significant_append,
      Token.significant_scanFrom_rparen, ih formed spelled.2 (.inr rfl) (inside operand),
      List.append_nil, printedAt, tokens_keyword]
  | operation token left right ihl ihr =>
    obtain ⟨kind, formedLeft, formedRight⟩ := formed
    rw [tokens_operation, List.forall_mem_cons, List.forall_mem_append] at spelled
    have written : (operation token left right).text.toList =
        '(' :: (token.text.toList ++
          ' ' :: (left.text.toList ++ ' ' :: (right.text.toList ++ [')']))) := by simp [text]
    rw [written, Token.significant_scanFrom_application spelled.1 (.inl kind),
      Token.scanFrom_text_append (Token.stops_space _), Token.scanFrom_space,
      Token.scanFrom_text_append Token.stops_rparen, Token.significant_append,
      Token.significant_append, Token.significant_scanFrom_rparen,
      ihl formedLeft spelled.2.1 (.inr rfl) (inside left),
      ihr formedRight spelled.2.2 (.inr rfl) (inside right), List.append_nil, printedAt,
      tokens_operation]
    have places : offset + token.text.utf8ByteSize + 2 + left.text.utf8ByteSize + 1 =
        offset + token.text.utf8ByteSize + left.text.utf8ByteSize + 3 := by omega
    rw [places]

/-! ## Reading the written form of a term -/

/-- The tokens of a term that was read from a line are spelled as their kinds ask. -/
theorem spelled_of_read {line : String} {term : Term} {endOffset : Nat}
    (success : ofTokens (scan line) endOffset = .ok term) :
    ∀ token ∈ term.tokens, token.Spelled := by
  obtain ⟨-, -, listed⟩ := ofTokens_eq_ok_iff.mp success
  intro token mem
  exact Token.spelled_of_mem_scan (Token.mem_significant.mp (listed.mem mem)).1

theorem read_text {term : Term} (formed : term.Formed) (within : term.nesting ≤ nestingLimit)
    (spelled : ∀ token ∈ term.tokens, token.Spelled) (signs : ¬ term.StartsWithMinus)
    (endOffset : Nat) :
    ∃ rest, read endOffset (scan term.text) = (.ok (term.printedAt 0), rest) ∧
      significant rest = [] := by
  have same := term.printedAt_eqUpToOffsets 0
  have formed' : (term.printedAt 0).Formed := same.formed_iff.mpr formed
  have within' : (term.printedAt 0).nesting ≤ nestingLimit := same.nesting_eq ▸ within
  have listed : significant (scan term.text) = (term.printedAt 0).tokens ++ [] := by
    rw [List.append_nil]
    exact significant_scanFrom_text formed spelled (.inl rfl) (fun _ => signs) 0
  have reads := formed'.reads within' endOffset listed
  refine ⟨_, reads.readWithin_eq, ?_⟩
  have left := (reads.listed rfl).2.2.1
  rw [listed] at left
  exact (List.append_cancel_left left).symm

theorem ofTokens_text {term : Term} (formed : term.Formed) (within : term.nesting ≤ nestingLimit)
    (spelled : ∀ token ∈ term.tokens, token.Spelled) (signs : ¬ term.StartsWithMinus)
    (endOffset : Nat) : ofTokens (scan term.text) endOffset = .ok (term.printedAt 0) := by
  obtain ⟨rest, again, -⟩ := read_text formed within spelled signs endOffset
  exact congrArg Prod.fst again

/-- At the start of a line a minus sign is an operator, and the digits behind it a number. -/
theorem scan_of_minus (digits : List Char) :
    scan (String.ofList ('-' :: digits)) = ⟨.operator, "-", 0⟩ :: scanFrom .elsewhere 1 digits := by
  have role : Place.opening.role '-' = .starts .operator := by simp [Place.role]
  rw [scan, String.toList_ofList, Token.scanFrom_of_starts role]
  rfl

theorem scanFrom_digits {digits : List Char} (nonempty : digits ≠ [])
    (inside : ∀ c ∈ digits, c.isDigit = true) (offset : Nat) :
    scanFrom .elsewhere offset digits = [⟨.number, String.ofList digits, offset⟩] := by
  let number : Token := ⟨.number, String.ofList digits, offset⟩
  have spelled : number.Spelled := ⟨digits, inside, .inr ⟨nonempty, rfl⟩⟩
  have suits : number.Suits .elsewhere := by
    intro minus
    simp [number]
  have alone := Token.scanFrom_text spelled (.inr rfl) suits offset
  rwa [String.toList_ofList] at alone

/-- A lone literal with a minus sign is read as an operator without its operands. -/
theorem ofTokens_scan_of_minus {token : Token} (spelled : token.Spelled)
    (kind : token.kind = .number)
    (minus : token.text.toList.head? = some '-') (endOffset : Nat) :
    (scan token.text).head? = some ⟨.operator, "-", 0⟩ ∧
      ofTokens (scan token.text) endOffset = .error (.missingOperand endOffset) := by
  simp only [Token.Spelled, kind] at spelled
  obtain ⟨digits, inside, written | ⟨-, written⟩⟩ := spelled
  · rw [written, scan_of_minus]
    refine ⟨rfl, ?_⟩
    have fails : ∃ rest, Reads endOffset nestingLimit
        (⟨.operator, "-", 0⟩ :: scanFrom .elsewhere 1 digits)
        (.error (.missingOperand endOffset)) rest := by
      cases digits with
      | nil => exact ⟨[], .firstFails rfl (.inl rfl) (.missing rfl)⟩
      | cons d digits =>
        rw [scanFrom_digits (List.cons_ne_nil d digits) inside]
        exact ⟨[], .secondFails rfl rfl (.number rfl rfl) (.missing rfl)⟩
    obtain ⟨rest, fails⟩ := fails
    exact congrArg Prod.fst fails.readWithin_eq
  · rw [written, String.toList_ofList] at minus
    obtain ⟨rest, rfl⟩ := List.head?_eq_some_iff.mp minus
    have digit := inside '-' List.mem_cons_self
    simp at digit

/-- A term read from a line is read back from its written form: the same term at other offsets, with
no token left and the same value or fault. A lone literal that begins with a minus sign is not:
there the sign subtracts, and operands are missing. -/
theorem ofTokens_scan_text {line : String} {term : Term}
    (success : ofTokens (scan line) line.utf8ByteSize = .ok term) :
    (¬ term.StartsWithMinus → ∃ copy,
      ofTokens (scan term.text) term.text.utf8ByteSize = .ok copy ∧
      copy.EqUpToOffsets term ∧ copy.text = term.text ∧
      significant (Term.read term.text.utf8ByteSize (scan term.text)).2 = [] ∧
      ∀ mode, (copy.value mode).mapError (EvalError.relocate fun _ => 0) =
        (term.value mode).mapError (EvalError.relocate fun _ => 0)) ∧
    (term.StartsWithMinus →
      (scan term.text).head? = some ⟨.operator, "-", 0⟩ ∧
      ofTokens (scan term.text) term.text.utf8ByteSize =
        .error (.missingOperand term.text.utf8ByteSize)) := by
  obtain ⟨formed, within, -⟩ := ofTokens_eq_ok_iff.mp success
  have spelled := spelled_of_read success
  constructor
  · intro signs
    obtain ⟨rest, again, nothing⟩ :=
      read_text formed within spelled signs term.text.utf8ByteSize
    have same := term.printedAt_eqUpToOffsets 0
    refine ⟨term.printedAt 0, congrArg Prod.fst again, same, same.text_eq, ?_, same.value_eq⟩
    rw [again]
    exact nothing
  · intro minus
    cases term with
    | literal token => exact ofTokens_scan_of_minus (spelled token (by simp)) formed minus _
    | keyword token operand => cases minus
    | operation token left right => cases minus

/-- A negative literal and a lone minus sign are read back where operands stand. -/
theorem ofTokens_scan_text_of_difference :
    let difference : Term := .operation ⟨.operator, "-", 1⟩
      (.keyword ⟨.keyword, "simplify", 4⟩ (.literal ⟨.number, "-7", 13⟩))
        (.literal ⟨.number, "-", 17⟩)
    ofTokens (scan "(- (simplify -7) -) 3") 21 = .ok difference ∧
      ¬ difference.StartsWithMinus ∧
      ∃ copy, ofTokens (scan difference.text) difference.text.utf8ByteSize = .ok copy ∧
        copy.EqUpToOffsets difference ∧ copy.text = "(- (simplify -7) -)" := by
  intro difference
  have success : ofTokens (scan "(- (simplify -7) -) 3") 21 = .ok difference := by rfl
  have signs : ¬ difference.StartsWithMinus := id
  obtain ⟨copy, again, same, text, -⟩ :=
    (@ofTokens_scan_text "(- (simplify -7) -) 3" _ success).1 signs
  exact ⟨success, signs, copy, again, same, text.trans (by decide)⟩

end PrefixArith.Term
