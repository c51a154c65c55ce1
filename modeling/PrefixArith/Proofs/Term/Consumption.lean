import PrefixArith.Proofs.Term.Reading

/-!
# What readings consume

A reading takes tokens from the front and leaves the others, after a failure as well. Its result
tells what it has taken (`Consumed`): the tokens of a term with parentheses before and between them,
or everything up to the application that nests too deep, or all there was. So in a run of readings,
each from where the one before it stopped, every reading leaves less, and the last ones find nothing
more (`readRepeatedly_advances`).
-/
namespace PrefixArith

namespace Token

/-- The token that is found first has only parentheses before it. -/
theorem exists_parens {tokens rest : List Token} {token : Token}
    (found : tokens.dropWhile isParen = token :: rest) :
    ∃ parens, tokens = parens ++ token :: rest ∧ significant parens = [] ∧
      ∀ more, significant (parens ++ token :: more) = token :: significant more := by
  have solid := (significant_eq_cons found).1
  have none : significant (tokens.takeWhile isParen) = [] := by
    have parens : ∀ token ∈ tokens.takeWhile isParen, token.isParen = true :=
      fun _ mem => List.all_eq_true.mp List.all_takeWhile _ mem
    simpa [significant] using parens
  refine ⟨tokens.takeWhile isParen, ?_, none, ?_⟩
  · rw [← found, List.takeWhile_append_dropWhile]
  · intro more
    rw [significant_append, none, List.nil_append, significant, List.filter_cons, solid,
      significant]
    rfl

end Token

namespace Term
open Token (significant firstTooDeep? isParen TooDeep)

/-! ## One reading -/

/-- The last of the tokens is a number. -/
def EndsOnNumber (consumed : List Token) : Prop :=
  ∃ last, consumed.getLast? = some last ∧ last.kind = .number

theorem EndsOnNumber.append {consumed : List Token} (ends : EndsOnNumber consumed)
    (before : List Token) : EndsOnNumber (before ++ consumed) := by
  obtain ⟨last, found, kind⟩ := ends
  exact ⟨last, by rw [List.getLast?_append, found, Option.some_or], kind⟩

/-- Placed from the left below `around` applications, the last of the tokens is an application that
nests too deep, and none of those before it does. -/
def EndsTooDeep (around : Nat) (consumed : List Token) (offset : Nat) : Prop :=
  ∃ earlier last, consumed = earlier ++ [last] ∧ last.offset = offset ∧
    (last.kind = .operator ∨ last.kind = .keyword) ∧
    nestingLimit ≤ around + (significant earlier).length ∧
    ∀ slots, firstTooDeep? nestingLimit (around :: slots) (significant earlier) = none ∧
      firstTooDeep? nestingLimit (around :: slots) (significant consumed) = some last

/-- At the root, more tokens than there are levels have been taken. -/
theorem EndsTooDeep.at_root {consumed : List Token} {offset : Nat}
    (deep : EndsTooDeep 0 consumed offset) :
    nestingLimit + 1 ≤ (significant consumed).length ∧
      ∃ earlier last, consumed = earlier ++ [last] ∧ last.offset = offset ∧
        firstTooDeep? nestingLimit [0] (significant earlier) = none ∧
        firstTooDeep? nestingLimit [0] (significant consumed) = some last := by
  obtain ⟨earlier, last, rfl, place, kind, enough, refused⟩ := deep
  have solid := Token.isParen_of_application kind
  refine ⟨?_, earlier, last, rfl, place, refused []⟩
  rw [Nat.zero_add] at enough
  rw [Token.significant_append, Token.significant_singleton solid, List.length_append]
  exact Nat.succ_le_succ enough

/-- What a reading below `around` applications has taken, and what it leaves, when it ends with the
given result. -/
def Consumed (endOffset around : Nat) (consumed rest : List Token) : Except ReadError Term → Prop
  | .ok term => significant consumed = term.tokens ∧ EndsOnNumber consumed
  | .error (.tooDeep limit offset) => limit = nestingLimit ∧ EndsTooDeep around consumed offset
  | .error (.missingOperand offset) => offset = endOffset ∧ rest = []
  | .error (.unexpected _ _) => False

/-- A failure one level further down is a failure of the whole, with the tokens before it taken as
well. -/
theorem Consumed.error_behind {endOffset around : Nat} {before consumed rest : List Token}
    {error : ReadError} (failure : Consumed endOffset (around + 1) consumed rest (.error error))
    (opened : List Nat)
    (placing : ∀ slots more,
      firstTooDeep? nestingLimit (around :: slots) (significant (before ++ more)) =
        firstTooDeep? nestingLimit ((around + 1) :: (opened ++ slots)) (significant more))
    (solid : significant before ≠ []) :
    Consumed endOffset around (before ++ consumed) rest (.error error) := by
  cases error with
  | unexpected text offset => exact failure
  | missingOperand offset => exact failure
  | tooDeep limit offset =>
    obtain ⟨limit, earlier, last, rfl, place, kind, enough, refused⟩ := failure
    refine ⟨limit, before ++ earlier, last, ?_, place, kind, ?_, ?_⟩
    · rw [List.append_assoc]
    · have counts := List.length_pos_of_ne_nil solid
      rw [Token.significant_append, List.length_append]
      omega
    · intro slots
      rw [placing, placing]
      exact refused (opened ++ slots)

/-- Every reading takes tokens from the front, as its result says. -/
theorem Reads.exists_consumed {endOffset levels : Nat} {tokens rest : List Token}
    {result : Except ReadError Term} (reads : Reads endOffset levels tokens result rest)
    {around : Nat} (depth : around + levels = nestingLimit) :
    ∃ consumed, tokens = consumed ++ rest ∧ Consumed endOffset around consumed rest result := by
  induction reads generalizing around with
  | @missing levels tokens found => exact ⟨tokens, (List.append_nil tokens).symm, rfl, rfl⟩
  | @number levels tokens rest token found kind =>
    obtain ⟨parens, rfl, -, listed⟩ := Token.exists_parens found
    exact ⟨parens ++ [token], by simp, listed [], EndsOnNumber.append ⟨token, rfl, kind⟩ parens⟩
  | @tooDeep tokens rest token found kind =>
    obtain ⟨parens, rfl, none, listed⟩ := Token.exists_parens found
    have deep : TooDeep nestingLimit (token, around) = true := by
      simp only [TooDeep, decide_eq_true_eq]
      exact ⟨kind, depth⟩
    refine ⟨parens ++ [token], by simp, rfl, parens, token, rfl, rfl, kind, ?_, ?_⟩
    · omega
    · intro slots
      rw [listed, none]
      exact ⟨Token.firstTooDeep?_nil _ _, Token.firstTooDeep?_of_tooDeep deep _ _⟩
  | @keyword levels tokens more rest token operand found kind only ih =>
    obtain ⟨parens, rfl, -, listed⟩ := Token.exists_parens found
    obtain ⟨consumed, rfl, operand, ends⟩ := @ih (around + 1) (by omega)
    refine ⟨parens ++ token :: consumed, by simp, ?_, (ends.append [token]).append parens⟩
    rw [listed, operand, tokens_keyword]
  | @operation levels tokens more middle rest token left right found kind first second ihl ihr =>
    obtain ⟨parens, rfl, -, listed⟩ := Token.exists_parens found
    obtain ⟨consumed, rfl, operand, -⟩ := @ihl (around + 1) (by omega)
    obtain ⟨consumed', rfl, operand', ends⟩ := @ihr (around + 1) (by omega)
    refine ⟨parens ++ token :: (consumed ++ consumed'), by simp, ?_,
      ((ends.append consumed).append [token]).append parens⟩
    rw [listed, Token.significant_append, operand, operand', tokens_operation]
  | @firstFails levels tokens more rest token error found kind first ih =>
    obtain ⟨parens, rfl, -, listed⟩ := Token.exists_parens found
    obtain ⟨consumed, rfl, failure⟩ := @ih (around + 1) (by omega)
    have room : around < nestingLimit := by omega
    have solid : significant (parens ++ [token]) ≠ [] := by simp [listed]
    refine ⟨(parens ++ [token]) ++ consumed, by simp, ?_⟩
    rcases kind with kind | kind
    · refine failure.error_behind [around + 1] ?_ solid
      intro slots more
      rw [List.append_assoc, List.singleton_append, listed, Token.firstTooDeep?_operator kind room,
        List.singleton_append]
    · refine failure.error_behind [] ?_ solid
      intro slots more
      rw [List.append_assoc, List.singleton_append, listed, Token.firstTooDeep?_keyword kind room,
        List.nil_append]
  | @secondFails levels tokens more middle rest token left error found kind first second ihl ihr =>
    obtain ⟨parens, rfl, -, listed⟩ := Token.exists_parens found
    obtain ⟨formed, within, -, -⟩ := first.listed rfl
    obtain ⟨consumed, rfl, operand, -⟩ := @ihl (around + 1) (by omega)
    obtain ⟨consumed', rfl, failure⟩ := @ihr (around + 1) (by omega)
    have room : around < nestingLimit := by omega
    have solid : significant (parens ++ token :: consumed) ≠ [] := by simp [listed]
    refine ⟨(parens ++ token :: consumed) ++ consumed', by simp, failure.error_behind [] ?_ solid⟩
    intro slots more
    rw [List.append_assoc, List.cons_append, listed, Token.firstTooDeep?_operator kind room,
      Token.significant_append, operand, firstTooDeep?_tokens formed (by omega), List.nil_append]

/-- A reading that takes only parentheses has found the end. -/
theorem Consumed.missing_or_solid {endOffset around : Nat} {consumed rest : List Token}
    {result : Except ReadError Term} (taken : Consumed endOffset around consumed rest result) :
    (result = .error (.missingOperand endOffset) ∧ rest = []) ∨ significant consumed ≠ [] := by
  cases result with
  | ok term =>
    obtain ⟨more, listed⟩ := term.tokens_eq_cons
    right
    rw [taken.1, listed]
    exact List.cons_ne_nil _ _
  | error error =>
    cases error with
    | unexpected text offset => exact taken.elim
    | missingOperand offset =>
      obtain ⟨rfl, nothing⟩ := taken
      exact .inl ⟨rfl, nothing⟩
    | tooDeep limit offset =>
      obtain ⟨-, earlier, last, rfl, -, kind, -⟩ := taken
      have solid := Token.isParen_of_application kind
      right
      rw [Token.significant_append, Token.significant_singleton solid]
      exact List.append_ne_nil_of_right_ne_nil _ (List.cons_ne_nil _ _)

section Read
variable (endOffset : Nat) (tokens : List Token)

theorem exists_consumed_read :
    ∃ consumed, tokens = consumed ++ (read endOffset tokens).2 ∧
      Consumed endOffset 0 consumed (read endOffset tokens).2 (read endOffset tokens).1 :=
  (reads_readWithin endOffset nestingLimit tokens).exists_consumed (Nat.zero_add _)

theorem read_nil : read endOffset [] = (.error (.missingOperand endOffset), []) := rfl

theorem read_suffix : (read endOffset tokens).2 <:+ tokens := by
  obtain ⟨consumed, taken, -⟩ := exists_consumed_read endOffset tokens
  exact ⟨consumed, taken.symm⟩

/-- A reading leaves less than it finds. -/
theorem length_read_lt {tokens : List Token} (found : tokens ≠ []) :
    (read endOffset tokens).2.length < tokens.length := by
  obtain ⟨consumed, taken, account⟩ := exists_consumed_read endOffset tokens
  rcases account.missing_or_solid with ⟨-, nothing⟩ | solid
  · rw [nothing]
    exact List.length_pos_of_ne_nil found
  · have some : consumed ≠ [] := by
      rintro rfl
      exact solid Token.significant_nil
    have counts := List.length_pos_of_ne_nil some
    have total := congrArg List.length taken
    rw [List.length_append] at total
    omega

/-- Every reading takes one of the tokens that are not parentheses, if there are any. -/
theorem length_significant_read :
    (significant (read endOffset tokens).2).length ≤ (significant tokens).length - 1 := by
  obtain ⟨consumed, taken, account⟩ := exists_consumed_read endOffset tokens
  rcases account.missing_or_solid with ⟨-, nothing⟩ | solid
  · rw [nothing]
    exact Nat.zero_le _
  · have counts := List.length_pos_of_ne_nil solid
    have total := congrArg (fun tokens => (significant tokens).length) taken
    simp only [Token.significant_append, List.length_append] at total
    omega

theorem read_of_only_parens {tokens : List Token} (only : significant tokens = []) :
    read endOffset tokens = (.error (.missingOperand endOffset), []) := by
  obtain ⟨consumed, taken, account⟩ := exists_consumed_read endOffset tokens
  rcases account.missing_or_solid with ⟨missing, nothing⟩ | solid
  · exact Prod.ext missing nothing
  · rw [taken, Token.significant_append, List.append_eq_nil_iff] at only
    exact absurd only.1 solid

end Read

/-! ## Many readings -/

/-- The tokens that reading number `n` of a run finds, counted from zero. -/
def foundBy (endOffset : Nat) : Nat → List Token → List Token
  | 0, tokens => tokens
  | n + 1, tokens => foundBy endOffset n (read endOffset tokens).2

section Run
variable (endOffset : Nat) (tokens : List Token)

theorem getElem?_readRepeatedly (count n : Nat) :
    (readRepeatedly endOffset tokens count)[n]? =
      if n < count then some (read endOffset (foundBy endOffset n tokens)) else none := by
  induction count generalizing tokens n with
  | zero => rfl
  | succ count ih =>
    cases n with
    | zero => rfl
    | succ n =>
      rw [readRepeatedly, List.getElem?_cons_succ, ih, foundBy]
      simp only [Nat.add_lt_add_iff_right]

theorem length_readRepeatedly (count : Nat) :
    (readRepeatedly endOffset tokens count).length = count := by
  induction count generalizing tokens with
  | zero => rfl
  | succ count ih => rw [readRepeatedly, List.length_cons, ih]

theorem foundBy_succ (n : Nat) :
    foundBy endOffset (n + 1) tokens = (read endOffset (foundBy endOffset n tokens)).2 := by
  induction n generalizing tokens with
  | zero => rfl
  | succ n ih => rw [foundBy, ih, foundBy]

theorem foundBy_suffix (n : Nat) : foundBy endOffset n tokens <:+ tokens := by
  induction n with
  | zero => exact List.suffix_rfl
  | succ n ih =>
    rw [foundBy_succ]
    exact (read_suffix endOffset _).trans ih

theorem length_significant_foundBy (n : Nat) :
    (significant (foundBy endOffset n tokens)).length ≤ (significant tokens).length - n := by
  induction n with
  | zero => exact Nat.le_refl _
  | succ n ih =>
    rw [foundBy_succ]
    have step := length_significant_read endOffset (foundBy endOffset n tokens)
    omega

/-- What a reading finds is all of the tokens, or what the reading before it left. -/
theorem getElem?_found (count n : Nat) :
    (tokens :: (readRepeatedly endOffset tokens count).map Prod.snd)[n]? =
      if n ≤ count then some (foundBy endOffset n tokens) else none := by
  cases n with
  | zero => rfl
  | succ n =>
    rw [List.getElem?_cons_succ, List.getElem?_map, getElem?_readRepeatedly, foundBy_succ]
    simp only [Nat.succ_le_iff]
    split <;> rfl

variable {endOffset tokens}

/-- Each step of a run is a reading of what it finds. -/
theorem read_foundBy {count n : Nat} {step : Except ReadError Term × List Token}
    (taken : (readRepeatedly endOffset tokens count)[n]? = some step) :
    n < count ∧ read endOffset (foundBy endOffset n tokens) = step := by
  rw [getElem?_readRepeatedly] at taken
  split at taken
  · next inside => exact ⟨inside, Option.some_inj.mp taken⟩
  · cases taken

/-- Behind a reading that lacks an operand there are only such readings. -/
theorem read_foundBy_of_missing {n m : Nat}
    (missing : read endOffset (foundBy endOffset n tokens) =
      (.error (.missingOperand endOffset), [])) (later : n ≤ m) :
    read endOffset (foundBy endOffset m tokens) = (.error (.missingOperand endOffset), []) := by
  induction later with
  | refl => exact missing
  | step _ ih => rw [foundBy_succ, ih, read_nil]

/-- Once there have been as many readings as there are tokens but for parentheses, nothing is left
to read. -/
theorem read_foundBy_of_enough {n : Nat} (enough : (significant tokens).length ≤ n) :
    read endOffset (foundBy endOffset n tokens) = (.error (.missingOperand endOffset), []) := by
  have total := length_significant_foundBy endOffset tokens n
  have only : significant (foundBy endOffset n tokens) = [] := by
    rw [← List.length_eq_zero_iff]
    omega
  exact read_of_only_parens endOffset only

end Run

/-- In a run of readings, which goes on after failures, every reading leaves a shorter end of the
tokens until none is left, and gives what reading anew from there would give. A term takes exactly
its own tokens with parentheses before and between them. A refused application is the last token
taken, and the first one placed below 1000 others. A reading that lacks an operand leaves nothing,
and so do all after it. That happens at the latest once there have been as many readings as there
are tokens but for parentheses. -/
theorem readRepeatedly_advances (endOffset : Nat) (tokens : List Token) (count : Nat) :
    let steps := readRepeatedly endOffset tokens count
    steps.length = count ∧
    ∀ n before result rest, (tokens :: steps.map Prod.snd)[n]? = some before →
      steps[n]? = some (result, rest) →
      rest <:+ tokens ∧
      (rest.length < before.length ∨ before = [] ∧ rest = []) ∧
      result = ofTokens before endOffset ∧
      (∃ consumed, before = consumed ++ rest ∧
        match result with
        | .ok term => significant consumed = term.tokens ∧
            ∃ last, consumed.getLast? = some last ∧ last.kind = .number
        | .error (.tooDeep limit offset) => limit = 1000 ∧ 1001 ≤ (significant consumed).length ∧
            ∃ earlier last, consumed = earlier ++ [last] ∧ last.offset = offset ∧
              firstTooDeep? 1000 [0] (significant earlier) = none ∧
              firstTooDeep? 1000 [0] (significant consumed) = some last
        | .error (.missingOperand offset) => offset = endOffset ∧ rest = [] ∧
            ∀ m later, n ≤ m → steps[m]? = some later →
              later = (.error (.missingOperand endOffset), [])
        | .error (.unexpected _ _) => False) ∧
      ((significant tokens).length ≤ n → result = .error (.missingOperand endOffset)) := by
  intro steps
  refine ⟨length_readRepeatedly endOffset tokens count, ?_⟩
  intro n before result rest found step
  obtain ⟨inside, step⟩ := read_foundBy step
  rw [getElem?_found, if_pos (Nat.le_of_lt inside), Option.some_inj] at found
  subst found
  have gives := congrArg Prod.fst step
  have leaves := congrArg Prod.snd step
  simp only at gives leaves
  obtain ⟨consumed, taken, account⟩ := exists_consumed_read endOffset (foundBy endOffset n tokens)
  rw [leaves] at taken account
  rw [gives] at account
  refine ⟨?_, ?_, gives.symm, ⟨consumed, taken, ?_⟩, ?_⟩
  · rw [← leaves, ← foundBy_succ]
    exact foundBy_suffix endOffset tokens (n + 1)
  · by_cases nothing : foundBy endOffset n tokens = []
    · rw [nothing, read_nil] at leaves
      exact .inr ⟨nothing, leaves.symm⟩
    · left
      rw [← leaves]
      exact length_read_lt endOffset nothing
  · cases result with
    | ok term => exact account
    | error error =>
      cases error with
      | unexpected text offset => exact account
      | missingOperand offset =>
        obtain ⟨rfl, rfl⟩ := account
        refine ⟨rfl, rfl, ?_⟩
        intro m later behind found
        rw [← (read_foundBy found).2]
        exact read_foundBy_of_missing step behind
      | tooDeep limit offset =>
        exact ⟨account.1, account.2.at_root⟩
  · intro enough
    rw [← gives, read_foundBy_of_enough enough]

/-- One keyword more than there is room for is refused, and what follows it is left. -/
theorem reads_of_replicate {token : Token} (kind : token.kind = .keyword) (endOffset levels : Nat)
    (rest : List Token) :
    Reads endOffset levels (List.replicate (levels + 1) token ++ rest)
      (.error (.tooDeep nestingLimit token.offset)) rest := by
  have found (more : List Token) : (token :: more).dropWhile isParen = token :: more := by
    simp [isParen, kind]
  induction levels with
  | zero => exact .tooDeep (found rest) (.inr kind)
  | succ levels ih => exact .firstFails (found _) (.inr kind) ih

/-- The first reading fails 1001 keywords in. The next one goes on behind them and reads a number,
and the sum after it lacks an operand. -/
theorem readRepeatedly_advances_behind_failure :
    let keyword : Token := ⟨.keyword, "f", 0⟩
    let number : Token := ⟨.number, "7", 1⟩
    let sum : List Token := [⟨.paren, ")", 2⟩, ⟨.operator, "+", 3⟩, ⟨.number, "1", 4⟩]
    let tokens := List.replicate 1001 keyword ++ number :: sum
    readRepeatedly 5 tokens 4 =
        [(.error (.tooDeep 1000 0), number :: sum), (.ok (.literal number), sum),
          (.error (.missingOperand 5), []), (.error (.missingOperand 5), [])] ∧
      (∃ consumed, tokens = consumed ++ number :: sum ∧ 1001 ≤ (significant consumed).length) ∧
      ofTokens (number :: sum) 5 = .ok (.literal number) ∧
      sum <:+ tokens := by
  intro keyword number sum tokens
  have first : read 5 tokens = (.error (.tooDeep 1000 0), number :: sum) :=
    (reads_of_replicate rfl 5 nestingLimit (number :: sum)).readWithin_eq
  have steps : readRepeatedly 5 tokens 4 =
      [(.error (.tooDeep 1000 0), number :: sum), (.ok (.literal number), sum),
        (.error (.missingOperand 5), []), (.error (.missingOperand 5), [])] := by
    rw [readRepeatedly, first]
    rfl
  obtain ⟨-, advances⟩ := readRepeatedly_advances 5 tokens 4
  rw [steps] at advances
  obtain ⟨-, -, -, ⟨consumed, taken, -, enough, -⟩, -⟩ := advances 0 _ _ _ rfl rfl
  obtain ⟨suffix, -, same, -, -⟩ := advances 1 _ _ _ rfl rfl
  exact ⟨steps, ⟨consumed, taken, enough⟩, same.symm, suffix⟩

end Term

end PrefixArith
