import PrefixArith.Proofs.Line.Answer
import PrefixArith.Proofs.Token.Overwriting

/-!
# Lines without some of their parentheses

Parentheses only separate. Any of them may be overwritten with spaces, other than an opening one
that makes a minus sign subtract, and the line is answered the same. The one thing that parentheses
decide is whether a line holds any token: where none is left, there is no answer, and there was none
but the lack of an operand before (`answer?_overwrite_parens`).
-/
namespace PrefixArith

/-- Where all characters take one byte, one of them stands at each offset. -/
theorem Text.exists_char_at {chars : List Char} (narrow : ∀ c ∈ chars, c.utf8Size = 1) {n : Nat}
    (inside : n < byteSize chars) :
    ∃ before c after, chars = before ++ c :: after ∧ byteSize before = n := by
  induction chars generalizing n with
  | nil => simp at inside
  | cons c rest ih =>
    cases n with
    | zero => exact ⟨[], c, rest, rfl, byteSize_nil⟩
    | succ n =>
      rw [List.forall_mem_cons] at narrow
      have width := narrow.1
      have inside' : n < byteSize rest := by
        rw [byteSize_cons] at inside
        omega
      obtain ⟨before, d, after, rfl, place⟩ := ih narrow.2 inside'
      refine ⟨c :: before, d, after, rfl, ?_⟩
      rw [byteSize_cons, place, width, Nat.add_comm]

/-- Only parentheses have a parenthesis in their text, and nothing else. -/
theorem Token.Spelled.paren_of_mem {token : Token} (spelled : token.Spelled) {c : Char}
    (mem : c ∈ token.text.toList) (paren : c = '(' ∨ c = ')') :
    token.isParen = true ∧ token.text.toList = [c] := by
  have apart :
    c.isDigit = false ∧ c.isAlpha = false ∧ c ∉ "+".toList ∧ c ∉ "*".toList ∧ c ∉ "-".toList := by
    rcases paren with rfl | rfl <;> decide
  obtain ⟨digit, letter, plus, times, minus⟩ := apart
  cases kind : token.kind with
  | paren =>
    simp only [Spelled, kind] at spelled
    refine ⟨by simp [isParen, kind], ?_⟩
    rcases spelled with text | text <;> rw [text] at mem ⊢ <;> simpa [eq_comm] using mem
  | operator =>
    simp only [Spelled, kind] at spelled
    rcases spelled with text | text | text <;> rw [text] at mem
    · exact absurd mem plus
    · exact absurd mem times
    · exact absurd mem minus
  | keyword =>
    simp only [Spelled, kind] at spelled
    rw [spelled.2 c mem] at letter
    cases letter
  | number =>
    simp only [Spelled, kind] at spelled
    obtain ⟨digits, inside, text | ⟨-, text⟩⟩ := spelled
    · rw [text, String.toList_ofList, List.mem_cons] at mem
      rcases mem with rfl | mem
      · simp at minus
      · rw [inside c mem] at digit
        cases digit
    · rw [text, String.toList_ofList] at mem
      rw [inside c mem] at digit
      cases digit

namespace Line
open Text (byteSize overwrite)
open Token (scan significant Recognised)

section Parens
variable {line : String} {chosen : Nat → Bool} {token : Token}
  (parens : ∀ before c after, line.toList = before ++ c :: after → chosen (byteSize before) = true →
    c = ')' ∨ c = '(' ∧ after.head? ≠ some '-')
include parens

/-- No byte of another token is chosen. -/
theorem chosen_eq_false (mem : token ∈ scan line) (solid : token.isParen = false) {byte : Nat}
    (low : token.offset ≤ byte) (high : byte < token.finish) : chosen byte = false := by
  have narrow : ∀ c ∈ token.text.toList, c.utf8Size = 1 := fun c inside =>
    Token.utf8Size_of_recognised (Token.recognised_of_mem_scan mem inside)
  have inside : byte - token.offset < byteSize token.text.toList := by
    rw [Text.byteSize_toList]
    unfold Token.finish at high
    omega
  obtain ⟨before, after, split, size⟩ := Token.mem_scan_verbatim mem
  obtain ⟨a, c, b, text, place⟩ := Text.exists_char_at narrow inside
  have same : line.toList = (before ++ a) ++ c :: (b ++ after) := by
    rw [split, text]
    simp
  have byteEq : byteSize (before ++ a) = byte := by
    rw [Text.byteSize_append, size, place]
    omega
  cases here : chosen byte with
  | false => rfl
  | true =>
    rw [← byteEq] at here
    have paren : c = '(' ∨ c = ')' := by
      rcases parens _ _ _ same here with close | ⟨opening, -⟩
      · exact .inr close
      · exact .inl opening
    have within : c ∈ token.text.toList := by simp [text]
    have found := ((Token.spelled_of_mem_scan mem).paren_of_mem within paren).1
    rw [solid] at found
    cases found

theorem removes_parens : Token.Removes chosen .opening 0 line.toList where
  erasable before c after same here := by
    rw [Nat.zero_add] at here
    exact .inr (parens before c after same here)
  whole token mem byte low high := by
    cases solid : token.isParen with
    | false =>
      rw [chosen_eq_false parens mem solid low high,
        chosen_eq_false parens mem solid (Nat.le_refl _) (Token.offset_lt_finish mem)]
    | true =>
      have spelled := Token.spelled_of_mem_scan mem
      have kind : token.kind = .paren := by simpa [Token.isParen] using solid
      simp only [Token.Spelled, kind] at spelled
      have width :
        token.text.utf8ByteSize = 1 := by rcases spelled with text | text <;> rw [text] <;> rfl
      have only : byte = token.offset := by
        rw [Token.finish, width] at high
        omega
      rw [only]

/-- The line with parentheses overwritten has the same tokens but for parentheses. -/
theorem significant_scan_overwrite :
    significant (scan (overwrite chosen line)) = significant (scan line) := by
  rw [Token.scan_overwrite (removes_parens parens), significant, List.filter_filter, significant]
  apply List.filter_congr
  intro token mem
  cases solid : token.isParen with
  | true => rfl
  | false =>
    rw [chosen_eq_false parens mem solid (Nat.le_refl _) (Token.offset_lt_finish mem)]
    rfl

/-- In a line without tokens there is nothing to overwrite. -/
theorem overwrite_eq_self (blank : scan line = []) : overwrite chosen line = line := by
  have none : ∀ before c after, line.toList = before ++ c :: after →
      chosen (0 + byteSize before) = false := by
    intro before c after same
    rw [Nat.zero_add, ← Bool.not_eq_true]
    intro here
    have known : Recognised c := Token.Erasable.recognised (.inr (parens before c after same here))
    exact absurd blank (Token.scan_ne_nil_iff.mpr ⟨c, by simp [same], known⟩)
  rw [overwrite, Text.overwriteFrom_eq_self none, String.ofList_toList]

theorem ofTokens_overwrite_parens :
    Term.ofTokens (scan (overwrite chosen line)) (overwrite chosen line).utf8ByteSize =
      Term.ofTokens (scan line) line.utf8ByteSize := by
  rw [Token.utf8ByteSize_overwrite (removes_parens parens)]
  exact Term.ofTokens_congr (significant_scan_overwrite parens) _

end Parens

theorem ofTokens_of_only_parens {tokens : List Token} (only : significant tokens = [])
    (endOffset : Nat) :
    Term.ofTokens tokens endOffset = .error (.missingOperand endOffset) := by
  rw [Term.ofTokens_congr (only.trans Token.significant_nil.symm)]
  rfl

/-- Without a token but parentheses, a line holds no other recognised characters. -/
theorem paren_of_recognised {line : String} (only : significant (scan line) = []) {c : Char}
    (mem : c ∈ line.toList) (known : Recognised c) : c = '(' ∨ c = ')' := by
  obtain ⟨token, scanned, inside⟩ := Token.exists_mem_text mem known
  have kind : token.kind = .paren := by
    by_contra other
    have solid : token ∈ significant (scan line) :=
      Token.mem_significant.mpr ⟨scanned, by simp [Token.isParen, other]⟩
    rw [only] at solid
    cases solid
  have spelled := Token.spelled_of_mem_scan scanned
  simp only [Token.Spelled, kind] at spelled
  rcases spelled with text | text <;> rw [text] at inside
  · exact .inl (by simpa using inside)
  · exact .inr (by simpa using inside)

/-- A line with any closing parentheses overwritten, and any opening ones but in front of a minus
sign, is answered the same as long as it keeps a token. If it keeps none, it has no answer. Then the
line held nothing recognised but parentheses, so it lacks an operand or has not been changed. -/
theorem answer?_overwrite_parens {line : String} {chosen : Nat → Bool}
    (parens : ∀ before c after, line.toList = before ++ c :: after →
      chosen (byteSize before) = true →
      c = ')' ∨ c = '(' ∧ after.head? ≠ some '-') (mode : Overflow) :
    (scan (overwrite chosen line) ≠ [] → answer? mode (overwrite chosen line) = answer? mode line) ∧
    (scan (overwrite chosen line) = [] →
      answer? mode (overwrite chosen line) = none ∧
      (∀ c ∈ line.toList, Recognised c → c = '(' ∨ c = ')') ∧
      (answer? mode line = some (.fault (.reading (.missingOperand line.utf8ByteSize))) ∨
        overwrite chosen line = line)) := by
  have scanned := Token.scan_overwrite (removes_parens parens)
  have read := ofTokens_overwrite_parens parens
  constructor
  · intro tokens
    have tokens' : scan line ≠ [] := by
      intro blank
      rw [scanned, blank] at tokens
      exact tokens rfl
    cases outcome : Term.ofTokens (scan line) line.utf8ByteSize with
    | ok term => rw [answer?_of_read (read.trans outcome), answer?_of_read outcome]
    | error error =>
      rw [answer?_of_unread tokens (read.trans outcome), answer?_of_unread tokens' outcome]
  · intro blank
    have only : significant (scan line) = [] := by
      rw [← significant_scan_overwrite parens, blank, Token.significant_nil]
    refine ⟨answer?_of_scan_nil blank, fun c => paren_of_recognised only, ?_⟩
    by_cases tokens : scan line = []
    · exact .inr (overwrite_eq_self parens tokens)
    · exact .inl (answer?_of_unread tokens (ofTokens_of_only_parens only _))

/-- Three parentheses are overwritten, and the unknown keyword is named where it was. Without its
only parenthesis, a line has no token any more. -/
theorem answer?_overwrite_parens_of_unbalanced :
    let line := "é((- 7 (foo 2)) -"
    let chosen : Nat → Bool := fun offset => offset ∈ [2, 8, 15]
    (∀ before c after, line.toList = before ++ c :: after → chosen (byteSize before) = true →
        c = ')' ∨ c = '(' ∧ after.head? ≠ some '-') ∧
      overwrite chosen line = "é (- 7  foo 2)  -" ∧
      answer? .checked (overwrite chosen line) =
        some (.fault (.evaluation (.unsupported "foo" 9))) ∧
      overwrite (fun _ => true) "(" = " " ∧ answer? .checked " " = none ∧
      answer? .checked "(" = some (.fault (.reading (.missingOperand 1))) := by
  intro line chosen
  have parens : ∀ before c after, line.toList = before ++ c :: after →
      chosen (byteSize before) = true → c = ')' ∨ c = '(' ∧ after.head? ≠ some '-' := by
    intro before c after same here
    have places : byteSize before = 2 ∨ byteSize before = 8 ∨ byteSize before = 15 := by
      simpa [chosen] using here
    -- An offset settles what stands there and behind it.
    have behind (start : List Char) (d : Char) (rest : List Char)
        (known : line.toList = start ++ d :: rest) (place : byteSize before = byteSize start) :
        c = d ∧ after = rest :=
      List.cons.inj (Text.append_inj_of_byteSize (same.symm.trans known) place).2
    rcases places with place | place | place
    · obtain ⟨rfl, rfl⟩ := behind "é".toList '(' "(- 7 (foo 2)) -".toList (by decide) place
      exact .inr ⟨rfl, by decide⟩
    · obtain ⟨rfl, rfl⟩ := behind "é((- 7 ".toList '(' "foo 2)) -".toList (by decide) place
      exact .inr ⟨rfl, by decide⟩
    · obtain ⟨rfl, rfl⟩ := behind "é((- 7 (foo 2)".toList ')' " -".toList (by decide) place
      exact .inl rfl
  have single : ∀ before c after, "(".toList = before ++ c :: after → true = true →
      c = ')' ∨ c = '(' ∧ after.head? ≠ some '-' := by
    intro before c after same _
    cases before with
    | nil =>
      obtain ⟨rfl, rfl⟩ := List.cons.inj same
      exact .inr ⟨rfl, by decide⟩
    | cons d before => simp at same
  have tokens : scan (overwrite chosen line) ≠ [] := by decide +kernel
  have answer : answer? .checked line = some (.fault (.evaluation (.unsupported "foo" 9))) := by
    decide +kernel
  have blank : overwrite (fun _ => true) "(" = " " := by decide
  have nothing : scan (overwrite (fun _ => true) "(") = [] := by
    rw [blank]
    decide
  obtain ⟨none, -, missing⟩ := (answer?_overwrite_parens single .checked).2 nothing
  have changed : overwrite (fun _ => true) "(" ≠ "(" := by decide
  rw [blank] at none
  exact ⟨parens, by decide +kernel,
    ((answer?_overwrite_parens parens .checked).1 tokens).trans answer, blank, none,
    missing.resolve_right changed⟩

end Line

end PrefixArith
