import PrefixArith.Proofs.Line.Extension

/-!
# Lines that lack operands

Where a reading runs out of tokens, the tokens themselves tell how many operands are missing: each
operator opens one place more than it fills, and each number fills one. As many numbers as that
complete the reading, with fewer of them it still lacks an operand (`Reads.exists_lacks`).
Completing never nests too deep, since a number needs no room below it.
-/
namespace PrefixArith

namespace Token

/-- How many of the tokens are of a kind. -/
def count (kind : Kind) (tokens : List Token) : Nat := tokens.countP (·.kind = kind)

@[simp] theorem count_nil (kind : Kind) : count kind [] = 0 := rfl

@[simp] theorem count_append (kind : Kind) (a b : List Token) :
    count kind (a ++ b) = count kind a + count kind b := List.countP_append

theorem count_cons (kind : Kind) (token : Token) (rest : List Token) :
    count kind (token :: rest) = count kind rest + if token.kind = kind then 1 else 0 := by
  simp [count, List.countP_cons]

theorem count_of_forall {kind : Kind} {tokens : List Token}
    (all : ∀ token ∈ tokens, token.kind = kind) :
    count kind tokens = tokens.length :=
  List.countP_eq_length.mpr fun token mem => decide_eq_true (all token mem)

/-- Only parentheses are passed over. -/
theorem count_significant {kind : Kind} (solid : kind ≠ .paren) (tokens : List Token) :
    count kind (significant tokens) = count kind tokens := by
  rw [count, significant, List.countP_filter, count]
  refine List.countP_congr fun token _ => ?_
  simp only [Bool.and_eq_true, decide_eq_true_eq, Bool.not_eq_true', and_iff_left_iff_imp]
  intro own
  rw [isParen, own]
  exact decide_eq_false solid

/-- A number is found behind tokens among which nothing is. -/
theorem dropWhile_append_of_nil {tokens rest : List Token} {token : Token}
    (none : tokens.dropWhile isParen = []) (kind : token.kind = .number) :
    (tokens ++ token :: rest).dropWhile isParen = token :: rest := by
  have solid : token.isParen = false := by simp [isParen, kind]
  rw [List.dropWhile_append, none]
  simp [solid]

end Token

namespace Term
open Token (significant isParen dropWhile_append_of_cons)

/-- The number of literals. -/
def literals : Term → Nat
  | .literal _ => 1
  | .keyword _ operand => operand.literals
  | .operation _ left right => left.literals + right.literals

/-- The tokens of a term are as many numbers as it has literals, and one operator less. -/
theorem Formed.count_tokens {term : Term} (formed : term.Formed) :
    Token.count .number term.tokens = term.literals ∧
      Token.count .operator term.tokens + 1 = term.literals := by
  induction term with
  | literal token =>
    have kind : token.kind = .number := formed
    simp [Token.count_cons, literals, kind]
  | keyword token operand ih =>
    obtain ⟨kind, formed⟩ := formed
    simpa [Token.count_cons, literals, kind] using ih formed
  | operation token left right ihl ihr =>
    obtain ⟨kind, formedLeft, formedRight⟩ := formed
    obtain ⟨numbers, operators⟩ := ihl formedLeft
    obtain ⟨numbers', operators'⟩ := ihr formedRight
    simp only [tokens_operation, Token.count_cons, Token.count_append, literals, kind, reduceCtorEq,
      ↓reduceIte]
    omega

/-- The tokens lack operands. Their operators and numbers tell how many; with fewer numbers behind
them a reading still lacks an operand, and with as many it gives a term and leaves nothing. -/
structure Lacks (levels : Nat) (tokens : List Token) (missing : Nat) : Prop where
  some : 1 ≤ missing
  total : Token.count .number (significant tokens) + missing =
    Token.count .operator (significant tokens) + 1
  fewer : ∀ later numbers, (∀ token ∈ numbers, token.kind = .number) → numbers.length < missing →
    Reads later levels (tokens ++ numbers) (.error (.missingOperand later)) []
  enough : ∀ later numbers, (∀ token ∈ numbers, token.kind = .number) → numbers.length = missing →
    ∃ term, Reads later levels (tokens ++ numbers) (.ok term) []

section Lacks
variable {levels missing : Nat} {tokens more : List Token} {token : Token}

/-- Only one operand is missing where there is nothing but parentheses. -/
theorem lacks_of_nil (none : tokens.dropWhile isParen = []) (levels : Nat) :
    Lacks levels tokens 1 where
  some := Nat.le_refl 1
  total := by rw [Token.significant_eq_nil none, Token.count_nil, Token.count_nil]
  fewer later numbers _ few := by
    rw [List.length_eq_zero_iff.mp (Nat.lt_one_iff.mp few), List.append_nil]
    exact .missing none
  enough later numbers kinds one := by
    obtain ⟨number, rfl⟩ := List.length_eq_one_iff.mp one
    have kind := kinds number List.mem_cons_self
    exact ⟨_, .number (Token.dropWhile_append_of_nil none kind) kind⟩

/-- A keyword needs what its operand lacks. -/
theorem Lacks.keyword (lacks : Lacks levels more missing)
    (found : tokens.dropWhile isParen = token :: more) (kind : token.kind = .keyword) :
    Lacks (levels + 1) tokens missing where
  some := lacks.some
  total := by
    have total := lacks.total
    rw [(Token.significant_eq_cons found).2]
    simpa [Token.count_cons, kind] using total
  fewer later numbers kinds few :=
    .firstFails (dropWhile_append_of_cons found numbers) (.inr kind)
      (lacks.fewer later numbers kinds few)
  enough later numbers kinds all := by
    obtain ⟨operand, only⟩ := lacks.enough later numbers kinds all
    exact ⟨_, .keyword (dropWhile_append_of_cons found numbers) kind only⟩

/-- An operator the first operand of which lacks something needs the second one as well. -/
theorem Lacks.first (lacks : Lacks levels more missing)
    (found : tokens.dropWhile isParen = token :: more) (kind : token.kind = .operator) :
    Lacks (levels + 1) tokens (missing + 1) where
  some := Nat.le_add_left 1 missing
  total := by
    have total := lacks.total
    rw [(Token.significant_eq_cons found).2]
    simp only [Token.count_cons, kind, reduceCtorEq, ↓reduceIte]
    omega
  fewer later numbers kinds few := by
    have found' := dropWhile_append_of_cons found numbers
    rcases Nat.lt_or_eq_of_le (Nat.le_of_lt_succ few) with fewer | all
    · exact .firstFails found' (.inl kind) (lacks.fewer later numbers kinds fewer)
    · obtain ⟨left, first⟩ := lacks.enough later numbers kinds all
      exact .secondFails found' kind first (.missing rfl)
  enough later numbers kinds all := by
    obtain ⟨earlier, last, rfl⟩ : ∃ earlier last, numbers = earlier ++ [last] := by
      rcases List.eq_nil_or_concat' numbers with rfl | split
      · cases all
      · exact split
    rw [List.forall_mem_append, List.forall_mem_singleton] at kinds
    rw [List.length_append, List.length_singleton, Nat.add_right_cancel_iff] at all
    obtain ⟨left, first⟩ := lacks.enough later earlier kinds.1 all
    have first' := first.append (by simp) later [last]
    have found' := dropWhile_append_of_cons found (earlier ++ [last])
    rw [← List.append_assoc more] at found'
    have solid : last.isParen = false := by simp [isParen, kinds.2]
    have second : Reads later levels [last] (.ok (.literal last)) [] :=
      .number (by simp [solid]) kinds.2
    exact ⟨_, .operation found' kind first' second⟩

/-- An operator with a first operand needs what the second one lacks. -/
theorem Lacks.second {endOffset : Nat} {middle : List Token} {left : Term}
    (lacks : Lacks levels middle missing) (first : Reads endOffset levels more (.ok left) middle)
    (found : tokens.dropWhile isParen = token :: more) (kind : token.kind = .operator) :
    Lacks (levels + 1) tokens missing where
  some := lacks.some
  total := by
    obtain ⟨formed, -, listed, -⟩ := first.listed rfl
    have counts := formed.count_tokens
    have total := lacks.total
    rw [(Token.significant_eq_cons found).2, listed]
    simp only [Token.count_cons, Token.count_append, kind, reduceCtorEq, ↓reduceIte]
    omega
  fewer later numbers kinds few :=
    .secondFails (dropWhile_append_of_cons found numbers) kind
      (first.append (by simp) later numbers)
      (lacks.fewer later numbers kinds few)
  enough later numbers kinds all := by
    obtain ⟨right, second⟩ := lacks.enough later numbers kinds all
    exact ⟨_, .operation (dropWhile_append_of_cons found numbers) kind
      (first.append (by simp) later numbers) second⟩

end Lacks

/-- A reading that lacks an operand tells how many there are to come. -/
theorem Reads.exists_lacks {endOffset levels : Nat} {tokens rest : List Token}
    {result : Except ReadError Term} (reads : Reads endOffset levels tokens result rest)
    (lacking : result = .error (.missingOperand endOffset)) :
    ∃ missing, Lacks levels tokens missing := by
  induction reads with
  | number | keyword | operation | tooDeep => cases lacking
  | @missing levels tokens found => exact ⟨1, lacks_of_nil found levels⟩
  | firstFails found kind _ ih =>
    obtain ⟨missing, lacks⟩ := ih lacking
    rcases kind with kind | kind
    · exact ⟨missing + 1, lacks.first found kind⟩
    · exact ⟨missing, lacks.keyword found kind⟩
  | secondFails found kind first _ _ ih =>
    obtain ⟨missing, lacks⟩ := ih lacking
    exact ⟨missing, lacks.second first found kind⟩

/-- Where an operand is missing, the end is named. -/
theorem missingOperand_offset {tokens : List Token} {endOffset offset : Nat}
    (failure : ofTokens tokens endOffset = .error (.missingOperand offset)) :
    offset = endOffset := by
  have cause := ofTokens_eq_error failure
  cases found : Token.firstTooDeep? nestingLimit [0] (significant tokens) with
  | none =>
    rw [found] at cause
    cases cause
    rfl
  | some token =>
    rw [found] at cause
    cases cause

end Term

namespace Line
open Token (scan count)

/-- The line with a number of ones behind it, each after a space. -/
def withOnes (line : String) (ones : Nat) : String := line ++ String.join (List.replicate ones " 1")

theorem withOnes_succ (line : String) (ones : Nat) :
    withOnes line (ones + 1) = withOnes line ones ++ " " ++ "1" := by
  rw [withOnes, withOnes, List.replicate_succ', String.join_append]
  simp [String.append_assoc]

theorem utf8ByteSize_withOnes (line : String) (ones : Nat) :
    (withOnes line ones).utf8ByteSize = line.utf8ByteSize + 2 * ones := by
  induction ones with
  | zero => simp [withOnes]
  | succ ones ih =>
    rw [withOnes_succ, String.utf8ByteSize_append, String.utf8ByteSize_append, ih]
    rfl

/-- The ones are numbers of their own, whatever the line ends with. -/
theorem scan_withOnes (line : String) (ones : Nat) :
    ∃ numbers, scan (withOnes line ones) = scan line ++ numbers ∧ numbers.length = ones ∧
      ∀ token ∈ numbers, token.kind = .number := by
  induction ones with
  | zero => exact ⟨[], by simp [withOnes], rfl, by simp⟩
  | succ ones ih =>
    obtain ⟨numbers, scanned, length, kinds⟩ := ih
    refine ⟨numbers ++ [⟨.number, "1", (withOnes line ones).utf8ByteSize + 1⟩], ?_, ?_, ?_⟩
    · rw [withOnes_succ, Token.scan_append_space, scanned, List.append_assoc]
      rfl
    · rw [List.length_append, length, List.length_singleton]
    · rw [List.forall_mem_append, List.forall_mem_singleton]
      exact ⟨kinds, rfl⟩

/-- A line that lacks an operand lacks as many as its operators and numbers tell. With fewer ones
behind it, it still lacks one, at its new end; with as many or more it is read as a term that has so
many literals more than the line has numbers. -/
theorem lacking_line_is_completed {mode : Overflow} {line : String} {offset : Nat}
    (lacking : answer? mode line = some (.fault (.reading (.missingOperand offset)))) :
    ∃ missing : Nat, 1 ≤ missing ∧
      (missing : Int) = 1 + count .operator (scan line) - count .number (scan line) ∧
      (∀ ones, ones < missing → ∀ mode, answer? mode (withOnes line ones) =
        some (.fault (.reading (.missingOperand (line.utf8ByteSize + 2 * ones))))) ∧
      ∀ ones, missing ≤ ones → ∃ term,
        Term.ofTokens (scan (withOnes line ones)) (withOnes line ones).utf8ByteSize = .ok term ∧
        term.literals = count .number (scan line) + missing := by
  have tokens : scan line ≠ [] := by
    intro blank
    rw [answer?_of_scan_nil blank] at lacking
    cases lacking
  have failure : Term.ofTokens (scan line) line.utf8ByteSize =
      .error (.missingOperand line.utf8ByteSize) := by
    rcases answer?_eq_fault lacking with ⟨error, same, failure⟩ | ⟨error, term, same, -⟩
    · obtain rfl : .missingOperand offset = error := Fault.reading.inj same
      rw [failure, Term.missingOperand_offset failure]
    · cases same
  have reads := Term.reads_readWithin line.utf8ByteSize Term.nestingLimit (scan line)
  obtain ⟨missing, lacks⟩ := reads.exists_lacks failure
  have total := lacks.total
  rw [Token.count_significant (by decide), Token.count_significant (by decide)] at total
  refine ⟨missing, lacks.some, by omega, ?_, ?_⟩
  · intro ones few mode
    obtain ⟨numbers, scanned, length, kinds⟩ := scan_withOnes line ones
    have still := lacks.fewer (withOnes line ones).utf8ByteSize numbers kinds (by omega)
    rw [← scanned] at still
    rw [← utf8ByteSize_withOnes]
    refine answer?_of_unread ?_ (congrArg Prod.fst still.readWithin_eq)
    rw [scanned]
    exact List.append_ne_nil_of_left_ne_nil tokens numbers
  · intro ones all
    obtain ⟨numbers, scanned, length, kinds⟩ := scan_withOnes line ones
    rw [← List.take_append_drop missing numbers] at scanned kinds
    rw [List.forall_mem_append] at kinds
    have taken : (numbers.take missing).length = missing := by
      rw [List.length_take]
      omega
    obtain ⟨term, read⟩ :=
      lacks.enough (withOnes line ones).utf8ByteSize (numbers.take missing) kinds.1 taken
    obtain ⟨formed, -, listed, -⟩ := read.listed rfl
    refine ⟨term, ?_, ?_⟩
    · have read' := read.append (by simp) (withOnes line ones).utf8ByteSize (numbers.drop missing)
      rw [List.append_assoc, ← scanned] at read'
      exact congrArg Prod.fst read'.readWithin_eq
    · have counts := congrArg (count .number) listed
      rw [Token.count_significant (by decide), Token.count_append, Token.count_of_forall kinds.1,
        taken, Token.significant_nil, List.append_nil, formed.count_tokens.1] at counts
      exact counts.symm

/-- A product lacks an operand of its first operand and its second one. The minus sign is a number
here and does not take the digit written behind it. -/
theorem lacking_line_is_completed_of_product :
    let line := "é(* (+ - (foo"
    answer? .checked line = some (.fault (.reading (.missingOperand line.utf8ByteSize))) ∧
      count .operator (scan line) = 2 ∧ count .number (scan line) = 1 ∧
      (∀ mode, answer? mode (withOnes line 1) =
        some (.fault (.reading (.missingOperand (line.utf8ByteSize + 2))))) ∧
      ∃ term, Term.ofTokens (scan (withOnes line 3)) (withOnes line 3).utf8ByteSize = .ok term ∧
        term.literals = 3 := by
  intro line
  have lacking : answer? .checked line =
      some (.fault (.reading (.missingOperand line.utf8ByteSize))) := by decide +kernel
  have operators : count .operator (scan line) = 2 := by decide +kernel
  have numbers : count .number (scan line) = 1 := by decide +kernel
  obtain ⟨missing, -, total, fewer, enough⟩ := lacking_line_is_completed lacking
  rw [operators, numbers] at total
  obtain rfl : missing = 2 := by omega
  obtain ⟨term, read, literals⟩ := enough 3 (by decide)
  rw [numbers] at literals
  exact ⟨lacking, operators, numbers, fewer 1 (by decide), term, read, literals⟩

end Line

end PrefixArith
