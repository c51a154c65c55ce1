import PrefixArith.Proofs.Term.Listing
import PrefixArith.Term.Read

/-!
# What reading accepts

Reading is compared with two independent definitions. A term is read exactly when the significant
tokens begin with its listing and it nests within the limit (`ofTokens_eq_ok_iff`). Otherwise the
tokens are placed one by one into the operands still missing (`Token.placed`), with no term in
sight, and the first application placed too deep is the one refused (`ofTokens_eq_error`).
-/
namespace PrefixArith

namespace Token

/-- How many operands a token asks for. -/
def arity (token : Token) : Nat :=
  match token.kind with
  | .operator => 2
  | .keyword => 1
  | .number | .paren => 0

/-- Tokens taken from the left, each with the number of applications around it. `slots` holds the
same number for every operand still missing, the next one first. Arity alone opens slots, and
nothing is placed once none is left. -/
def placed : List Nat → List Token → List (Token × Nat)
  | [], _ => []
  | _ :: _, [] => []
  | around :: slots, token :: rest =>
    (token, around) :: placed (List.replicate token.arity (around + 1) ++ slots) rest

/-- The token applies something although `limit` applications stand around it. -/
def TooDeep (limit : Nat) (entry : Token × Nat) : Bool :=
  (entry.1.kind = .operator ∨ entry.1.kind = .keyword) ∧ entry.2 = limit

/-- The first token, as placed from the left, that nests too deep. -/
def firstTooDeep? (limit : Nat) (slots : List Nat) (tokens : List Token) : Option Token :=
  ((placed slots tokens).find? (TooDeep limit)).map Prod.fst

theorem firstTooDeep?_nil (limit : Nat) (slots : List Nat) :
    firstTooDeep? limit slots [] = none := by
  cases slots <;> rfl

theorem firstTooDeep?_of_tooDeep {limit around : Nat} {token : Token}
    (h : TooDeep limit (token, around) = true) (slots : List Nat) (rest : List Token) :
    firstTooDeep? limit (around :: slots) (token :: rest) = some token := by
  simp [firstTooDeep?, placed, h]

theorem firstTooDeep?_of_not_tooDeep {limit around : Nat} {token : Token}
    (h : TooDeep limit (token, around) = false) (slots : List Nat) (rest : List Token) :
    firstTooDeep? limit (around :: slots) (token :: rest) =
      firstTooDeep? limit (List.replicate token.arity (around + 1) ++ slots) rest := by
  simp [firstTooDeep?, placed, h]

section Placing
variable {limit around : Nat} {token : Token}

/-- A number fills a slot. -/
theorem firstTooDeep?_number (kind : token.kind = .number) (slots : List Nat) (rest : List Token) :
    firstTooDeep? limit (around :: slots) (token :: rest) = firstTooDeep? limit slots rest := by
  rw [firstTooDeep?_of_not_tooDeep (by simp [TooDeep, kind])]
  simp [arity, kind]

/-- A keyword with room below it opens a slot for its operand. -/
theorem firstTooDeep?_keyword (kind : token.kind = .keyword) (room : around < limit)
    (slots : List Nat) (rest : List Token) :
    firstTooDeep? limit (around :: slots) (token :: rest) =
      firstTooDeep? limit ((around + 1) :: slots) rest := by
  rw [firstTooDeep?_of_not_tooDeep (by simp only [TooDeep, decide_eq_false_iff_not]; omega)]
  simp [arity, kind]

/-- An operator with room below it opens a slot for each of its operands. -/
theorem firstTooDeep?_operator (kind : token.kind = .operator) (room : around < limit)
    (slots : List Nat) (rest : List Token) :
    firstTooDeep? limit (around :: slots) (token :: rest) =
      firstTooDeep? limit ((around + 1) :: (around + 1) :: slots) rest := by
  rw [firstTooDeep?_of_not_tooDeep (by simp only [TooDeep, decide_eq_false_iff_not]; omega)]
  simp [arity, kind, List.replicate]

end Placing

end Token

namespace Term
open Token

/-- Placing the listing of a term fills one slot, and refuses nothing within the limit. -/
theorem firstTooDeep?_tokens {term : Term} {limit around : Nat} (formed : term.Formed)
    (within : around + term.nesting ≤ limit) (slots : List Nat) (rest : List Token) :
    firstTooDeep? limit (around :: slots) (term.tokens ++ rest) =
      firstTooDeep? limit slots rest := by
  induction term generalizing around slots rest with
  | literal token => rw [tokens_literal, List.singleton_append, firstTooDeep?_number formed]
  | keyword token operand ih =>
    obtain ⟨kind, formed⟩ := formed
    rw [nesting] at within
    have room : around < limit := by omega
    rw [tokens_keyword, List.cons_append, firstTooDeep?_keyword kind room, ih formed (by omega)]
  | operation token left right ihl ihr =>
    obtain ⟨kind, formedLeft, formedRight⟩ := formed
    rw [nesting] at within
    have room : around < limit := by omega
    rw [tokens_operation, List.cons_append, List.append_assoc, firstTooDeep?_operator kind room,
      ihl formedLeft (by omega), ihr formedRight (by omega)]

/-- How reading goes on, one constructor for each way in which it can end: the first significant
token decides which operands are read, and the first failure among them is passed on. -/
inductive Reads (endOffset : Nat) :
    Nat → List Token → Except ReadError Term → List Token → Prop where
  | missing {levels : Nat} {tokens : List Token} (found : tokens.dropWhile isParen = []) :
      Reads endOffset levels tokens (.error (.missingOperand endOffset)) []
  | number {levels : Nat} {tokens rest : List Token} {token : Token}
      (found : tokens.dropWhile isParen = token :: rest) (kind : token.kind = .number) :
      Reads endOffset levels tokens (.ok (.literal token)) rest
  | tooDeep {tokens rest : List Token} {token : Token}
      (found : tokens.dropWhile isParen = token :: rest)
      (kind : token.kind = .operator ∨ token.kind = .keyword) :
      Reads endOffset 0 tokens (.error (.tooDeep nestingLimit token.offset)) rest
  | keyword {levels : Nat} {tokens more rest : List Token} {token : Token} {operand : Term}
      (found : tokens.dropWhile isParen = token :: more) (kind : token.kind = .keyword)
      (only : Reads endOffset levels more (.ok operand) rest) :
      Reads endOffset (levels + 1) tokens (.ok (.keyword token operand)) rest
  | operation {levels : Nat} {tokens more middle rest : List Token} {token : Token}
      {left right : Term}
      (found : tokens.dropWhile isParen = token :: more) (kind : token.kind = .operator)
      (first : Reads endOffset levels more (.ok left) middle)
      (second : Reads endOffset levels middle (.ok right) rest) :
      Reads endOffset (levels + 1) tokens (.ok (.operation token left right)) rest
  | firstFails {levels : Nat} {tokens more rest : List Token} {token : Token} {error : ReadError}
      (found : tokens.dropWhile isParen = token :: more)
      (kind : token.kind = .operator ∨ token.kind = .keyword)
      (first : Reads endOffset levels more (.error error) rest) :
      Reads endOffset (levels + 1) tokens (.error error) rest
  | secondFails {levels : Nat} {tokens more middle rest : List Token} {token : Token} {left : Term}
      {error : ReadError}
      (found : tokens.dropWhile isParen = token :: more) (kind : token.kind = .operator)
      (first : Reads endOffset levels more (.ok left) middle)
      (second : Reads endOffset levels middle (.error error) rest) :
      Reads endOffset (levels + 1) tokens (.error error) rest

theorem reads_readWithin (endOffset levels : Nat) (tokens : List Token) :
    Reads endOffset levels tokens (readWithin endOffset levels tokens).1
      (readWithin endOffset levels tokens).2 := by
  fun_induction readWithin endOffset levels tokens with
  | case1 levels tokens found => exact .missing found
  | case2 levels tokens token rest found kind => exact .number found kind
  | case3 levels tokens token rest found kind =>
    have solid := (significant_eq_cons found).1
    simp [isParen, kind] at solid
  | case4 tokens token rest found kind => exact .tooDeep found (.inr kind)
  | case5 tokens token rest found kind => exact .tooDeep found (.inl kind)
  | case6 tokens token more found levels kind error rest failed only =>
    rw [failed] at only
    exact .firstFails found (.inr kind) only
  | case7 tokens token more found levels kind operand rest read only =>
    rw [read] at only
    exact .keyword found kind only
  | case8 tokens token more found levels kind error rest failed first =>
    rw [failed] at first
    exact .firstFails found (.inl kind) first
  | case9 tokens token more found levels kind left middle read error rest failed first second =>
    rw [read] at first
    rw [failed] at second
    exact .secondFails found kind first second
  | case10 tokens token more found levels kind left middle read right rest read' first second =>
    rw [read] at first
    rw [read'] at second
    exact .operation found kind first second

theorem Reads.readWithin_eq {endOffset levels : Nat} {tokens rest : List Token}
    {result : Except ReadError Term} (reads : Reads endOffset levels tokens result rest) :
    readWithin endOffset levels tokens = (result, rest) := by
  induction reads with
  | missing found =>
    unfold readWithin
    rw [found]
  | number found kind =>
    unfold readWithin
    rw [found]
    simp only [kind]
  | tooDeep found kind =>
    unfold readWithin
    rw [found]
    rcases kind with kind | kind <;> simp only [kind]
  | keyword found kind _ only =>
    unfold readWithin
    rw [found]
    simp only [kind, only]
  | operation found kind _ _ first second =>
    unfold readWithin
    rw [found]
    simp only [kind, first, second]
  | firstFails found kind _ first =>
    unfold readWithin
    rw [found]
    rcases kind with kind | kind <;> simp only [kind, first]
  | secondFails found kind _ _ first second =>
    unfold readWithin
    rw [found]
    simp only [kind, first, second]

/-- Soundness: a term that is read stands at the front of the significant tokens. -/
theorem Reads.listed {endOffset levels : Nat} {tokens rest : List Token}
    {result : Except ReadError Term} {term : Term}
    (reads : Reads endOffset levels tokens result rest) (success : result = .ok term) :
    term.Formed ∧ term.nesting ≤ levels ∧
      significant tokens = term.tokens ++ significant rest ∧ rest = skip term.size tokens := by
  induction reads generalizing term with
  | missing | tooDeep | firstFails | secondFails => cases success
  | number found kind =>
    cases success
    refine ⟨kind, Nat.zero_le _, (significant_eq_cons found).2, ?_⟩
    rw [size, skip_succ found, skip]
  | keyword found kind _ only =>
    cases success
    obtain ⟨formed, within, listed, left⟩ := only rfl
    refine ⟨⟨kind, formed⟩, Nat.succ_le_succ within, ?_, ?_⟩
    · rw [(significant_eq_cons found).2, listed, tokens_keyword, List.cons_append]
    · rw [size, skip_succ found, ← left]
  | operation found kind _ _ first second =>
    cases success
    obtain ⟨formedLeft, withinLeft, listedLeft, leftLeft⟩ := first rfl
    obtain ⟨formedRight, withinRight, listedRight, leftRight⟩ := second rfl
    refine ⟨⟨kind, formedLeft, formedRight⟩, ?_, ?_, ?_⟩
    · rw [nesting]
      omega
    · rw [(significant_eq_cons found).2, listedLeft, listedRight, tokens_operation]
      simp only [List.cons_append, List.append_assoc]
    · rw [size, skip_succ found, skip_add, ← leftLeft, ← leftRight]

/-- Completeness: a listing within the limit is read, whatever follows it. -/
theorem Formed.reads {term : Term} (formed : term.Formed) {levels : Nat}
    (within : term.nesting ≤ levels) (endOffset : Nat) {tokens more : List Token}
    (listed : significant tokens = term.tokens ++ more) :
    Reads endOffset levels tokens (.ok term) (skip term.size tokens) := by
  induction term generalizing levels tokens more with
  | literal token =>
    obtain ⟨rest, found, -⟩ := dropWhile_eq_cons listed
    rw [size, skip_succ found, skip]
    exact .number found formed
  | keyword token operand ih =>
    obtain ⟨kind, formed⟩ := formed
    obtain ⟨rest, found, listed⟩ := dropWhile_eq_cons listed
    obtain ⟨levels, rfl⟩ : ∃ n, levels = n + 1 := ⟨levels - 1, by rw [nesting] at within; omega⟩
    rw [size, skip_succ found]
    exact .keyword found kind (ih formed (Nat.le_of_succ_le_succ within) listed)
  | operation token left right ihl ihr =>
    obtain ⟨kind, formedLeft, formedRight⟩ := formed
    rw [nesting] at within
    rw [tokens_operation, List.cons_append, List.append_assoc] at listed
    obtain ⟨rest, found, listed⟩ := dropWhile_eq_cons listed
    obtain ⟨levels, rfl⟩ : ∃ n, levels = n + 1 := ⟨levels - 1, by omega⟩
    have withinLeft : left.nesting ≤ levels := by omega
    have withinRight : right.nesting ≤ levels := by omega
    have first := ihl formedLeft withinLeft listed
    have listed' : significant (skip left.size rest) = right.tokens ++ more := by
      have same := (first.listed rfl).2.2.1
      rw [listed] at same
      exact (List.append_cancel_left same).symm
    rw [size, skip_succ found, skip_add]
    exact .operation found kind first (ihr formedRight withinRight listed')

/-- What reading reports when the given token nests too deep, or none does. -/
def refusal (endOffset : Nat) : Option Token → ReadError
  | some token => .tooDeep nestingLimit token.offset
  | none => .missingOperand endOffset

theorem refusal_ne_unexpected (endOffset : Nat) (found : Option Token) (text : String)
    (offset : Nat) :
    refusal endOffset found ≠ .unexpected text offset := by
  cases found <;> exact ReadError.noConfusion

/-- A failed reading has placed its tokens as far as the first one that nests too deep, or to the
end. -/
theorem Reads.refused {endOffset levels : Nat} {tokens rest : List Token}
    {result : Except ReadError Term} {error : ReadError}
    (reads : Reads endOffset levels tokens result rest) (failure : result = .error error)
    {around : Nat} (depth : around + levels = nestingLimit) (slots : List Nat) :
    error =
      refusal endOffset (firstTooDeep? nestingLimit (around :: slots) (significant tokens)) := by
  induction reads generalizing around slots with
  | number | keyword | operation => cases failure
  | missing found =>
    cases failure
    rw [significant_eq_nil found, firstTooDeep?_nil, refusal]
  | tooDeep found kind =>
    cases failure
    rw [(significant_eq_cons found).2, firstTooDeep?_of_tooDeep, refusal]
    simp only [TooDeep, decide_eq_true_eq]
    exact ⟨kind, depth⟩
  | firstFails found kind _ first =>
    have room : around < nestingLimit := by omega
    rw [(significant_eq_cons found).2]
    rcases kind with kind | kind
    · rw [firstTooDeep?_operator kind room]
      exact first failure (by omega) _
    · rw [firstTooDeep?_keyword kind room]
      exact first failure (by omega) _
  | secondFails found kind first _ _ second =>
    obtain ⟨formed, within, listed, -⟩ := first.listed rfl
    have room : around < nestingLimit := by omega
    rw [(significant_eq_cons found).2, firstTooDeep?_operator kind room, listed,
      firstTooDeep?_tokens formed (by omega)]
    exact second failure (by omega) slots

theorem ofTokens_eq_ok_iff {tokens : List Token} {endOffset : Nat} {term : Term} :
    ofTokens tokens endOffset = .ok term ↔
      term.Formed ∧ term.nesting ≤ nestingLimit ∧ term.tokens <+: significant tokens := by
  constructor
  · intro success
    obtain ⟨formed, within, listed, -⟩ :=
      (reads_readWithin endOffset nestingLimit tokens).listed success
    exact ⟨formed, within, significant _, listed.symm⟩
  · rintro ⟨formed, within, more, listed⟩
    exact congrArg Prod.fst (formed.reads within endOffset listed.symm).readWithin_eq

theorem ofTokens_eq_error {tokens : List Token} {endOffset : Nat} {error : ReadError}
    (failure : ofTokens tokens endOffset = .error error) :
    error = refusal endOffset (firstTooDeep? nestingLimit [0] (significant tokens)) :=
  (reads_readWithin endOffset nestingLimit tokens).refused failure (Nat.zero_add _) []

/-- Parentheses have no part in what is read. -/
theorem ofTokens_congr {tokens tokens' : List Token}
    (same : significant tokens = significant tokens')
    (endOffset : Nat) : ofTokens tokens endOffset = ofTokens tokens' endOffset := by
  cases outcome : ofTokens tokens' endOffset with
  | ok term =>
    rw [ofTokens_eq_ok_iff, ← same] at outcome
    exact ofTokens_eq_ok_iff.mpr outcome
  | error error =>
    cases outcome' : ofTokens tokens endOffset with
    | ok term =>
      rw [ofTokens_eq_ok_iff, same] at outcome'
      have read : ofTokens tokens' endOffset = .ok term := ofTokens_eq_ok_iff.mpr outcome'
      rw [outcome] at read
      cases read
    | error error' => rw [ofTokens_eq_error outcome', ofTokens_eq_error outcome, same]

/-- Reading accepts a token list exactly when its significant tokens begin with the listing of a
formed term that nests within the limit. It gives that term, which is the only one, and leaves the
tokens behind it. Otherwise it refuses the first application placed below 1000 others, or finds the
end; no token is ever unexpected. -/
theorem ofTokens_accepts_exactly_listings (tokens : List Token) (endOffset : Nat) :
    (∀ term, ofTokens tokens endOffset = .ok term ↔
      term.Formed ∧ term.nesting ≤ 1000 ∧ term.tokens <+: significant tokens) ∧
    (∀ term other : Term, term.Formed → other.Formed → term.tokens <+: significant tokens →
      other.tokens <+: significant tokens → other = term) ∧
    (∀ term, ofTokens tokens endOffset = .ok term →
      term.tokens.length = term.size ∧ term.depth ≤ 1001 ∧
        (read endOffset tokens).2 = skip term.size tokens) ∧
    ((¬ ∃ term : Term,
        term.Formed ∧ term.nesting ≤ 1000 ∧ term.tokens <+: significant tokens) →
      ofTokens tokens endOffset =
        match firstTooDeep? 1000 [0] (significant tokens) with
        | some token => .error (.tooDeep 1000 token.offset)
        | none => .error (.missingOperand endOffset)) ∧
    ∀ text offset, ofTokens tokens endOffset ≠ .error (.unexpected text offset) := by
  refine ⟨fun term => ofTokens_eq_ok_iff, ?_, ?_, ?_, ?_⟩
  · rintro term other formed formed' ⟨more, listed⟩ ⟨more', listed'⟩
    exact (tokens_append_inj formed' formed (listed'.trans listed.symm)).1
  · intro term success
    obtain ⟨-, within, -, left⟩ :=
      (reads_readWithin endOffset nestingLimit tokens).listed success
    refine ⟨term.tokens_length, ?_, left⟩
    rw [depth_eq_nesting]
    exact Nat.succ_le_succ within
  · intro unlisted
    cases outcome : ofTokens tokens endOffset with
    | ok term => exact absurd ⟨term, ofTokens_eq_ok_iff.mp outcome⟩ unlisted
    | error error =>
      have cause := ofTokens_eq_error outcome
      rw [cause, show (1000 : Nat) = nestingLimit from rfl]
      cases firstTooDeep? nestingLimit [0] (significant tokens) <;> rfl
  · intro text offset failure
    exact refusal_ne_unexpected _ _ text offset (ofTokens_eq_error failure).symm

/-- A sum is read from its listing, and what follows its last number is left. -/
theorem ofTokens_accepts_sum :
    let sum : Term := .operation ⟨.operator, "+", 1⟩ (.literal ⟨.number, "1", 3⟩)
      (.literal ⟨.number, "2", 5⟩)
    let tokens : List Token := [⟨.paren, "(", 0⟩, ⟨.operator, "+", 1⟩, ⟨.number, "1", 3⟩,
      ⟨.number, "2", 5⟩, ⟨.paren, ")", 6⟩, ⟨.keyword, "x", 8⟩]
    (sum.Formed ∧ sum.nesting ≤ 1000 ∧ sum.tokens <+: significant tokens) ∧
      ofTokens tokens 9 = .ok sum ∧
      (read 9 tokens).2 = [⟨.paren, ")", 6⟩, ⟨.keyword, "x", 8⟩] := by
  intro sum tokens
  obtain ⟨accepts, -, leaves, -, -⟩ := ofTokens_accepts_exactly_listings tokens 9
  have listed : sum.Formed ∧ sum.nesting ≤ 1000 ∧ sum.tokens <+: significant tokens :=
    ⟨⟨rfl, rfl, rfl⟩, by decide, by decide⟩
  have success : ofTokens tokens 9 = .ok sum := (accepts sum).mpr listed
  exact ⟨listed, success, (leaves sum success).2.2⟩

end Term

end PrefixArith
