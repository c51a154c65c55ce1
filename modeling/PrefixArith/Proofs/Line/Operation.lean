import PrefixArith.Proofs.Line.Answer
import PrefixArith.Proofs.Token.Pieces

/-!
# An operation on two lines

Two lines that are read as terms may be put behind an operator, in one application. Nothing but
arity ends the first operand there, so no token may be left behind the term of its line; the second
line may hold more. What the whole line answers is then known from the answers of the two: the first
fault, moved to where its line stands, or what the operator makes of the two values
(`answer?_operation`).
-/
namespace PrefixArith

namespace Line
open Token (scan significant)

/-- The operator at the place that it has in a line that starts with its application. -/
def operatorToken (operator : Operator) : Token := ⟨.operator, operator.text, 1⟩

/-- The application of an operator to two lines. -/
def joined (operator : Operator) (first second : String) : String :=
  "(" ++ operator.text ++ " " ++ first ++ " " ++ second ++ ")"

section Joined
variable {operator : Operator} {first second : String} {left right : Term} {mode : Overflow}

theorem significant_scan_joined (unsigned : first.toList.head? ≠ some '-')
    (unsigned' : second.toList.head? ≠ some '-') :
    significant (scan (joined operator first second)) =
      operatorToken operator :: ((significant (scan first)).map (Token.relocate (· + 3)) ++
        (significant (scan second)).map (Token.relocate (· + (4 + first.utf8ByteSize)))) := by
  have spelled : (operatorToken operator).Spelled := Token.spelled_operator operator 1
  have written : (joined operator first second).toList =
      '(' :: ((operatorToken operator).text.toList ++
        ' ' :: (first.toList ++ ' ' :: (second.toList ++ [')']))) := by
    simp [joined, operatorToken]
  have place : 0 + (operatorToken operator).text.utf8ByteSize + 2 = 3 := by
    rw [operatorToken, operator.utf8ByteSize_text]
  have place' : 3 + first.utf8ByteSize + 1 = 4 + first.utf8ByteSize := by omega
  rw [scan, written, Token.significant_scanFrom_application spelled (.inl rfl), place,
    Token.scanFrom_text_append (Token.stops_space _), Token.scanFrom_space, place',
    Token.scanFrom_text_append Token.stops_rparen, Token.significant_append,
    Token.significant_append, Token.significant_scanFrom_rparen, List.append_nil,
    Token.scanFrom_of_unsigned unsigned, Token.scanFrom_of_unsigned unsigned',
    Token.significant_map_relocate, Token.significant_map_relocate]
  rfl

/-- The operation that the terms of two lines make, the second of them behind `size` bytes of the
first. -/
def joinedTerm (operator : Operator) (size : Nat) (left right : Term) : Term :=
  .operation (operatorToken operator) (left.relocate (· + 3)) (right.relocate (· + (4 + size)))

/-- Where a level is left, two terms are read as the operands of an operator, the first of them from
a line that holds nothing else. -/
theorem ofTokens_joined (operator : Operator) (unsigned : first.toList.head? ≠ some '-')
    (unsigned' : second.toList.head? ≠ some '-') (whole : significant (scan first) = left.tokens)
    (success : Term.ofTokens (scan first) first.utf8ByteSize = .ok left)
    (success' : Term.ofTokens (scan second) second.utf8ByteSize = .ok right)
    (room : left.nesting + 1 ≤ Term.nestingLimit) (room' : right.nesting + 1 ≤ Term.nestingLimit) :
    Term.ofTokens (scan (joined operator first second))
      (joined operator first second).utf8ByteSize =
      .ok (joinedTerm operator first.utf8ByteSize left right) := by
  obtain ⟨formed, -, -⟩ := Term.ofTokens_eq_ok_iff.mp success
  obtain ⟨formed', -, more, listed⟩ := Term.ofTokens_eq_ok_iff.mp success'
  refine Term.ofTokens_eq_ok_iff.mpr
    ⟨?_, ?_, more.map (Token.relocate (· + (4 + first.utf8ByteSize))), ?_⟩
  · exact ⟨rfl, Term.formed_relocate.mpr formed, Term.formed_relocate.mpr formed'⟩
  · rw [joinedTerm, Term.nesting, Term.nesting_relocate, Term.nesting_relocate]
    omega
  · rw [significant_scan_joined unsigned unsigned', whole, ← listed, joinedTerm,
      Term.tokens_operation, Term.tokens_relocate, Term.tokens_relocate, List.map_append,
      List.cons_append, List.append_assoc]

/-- What an operation on two lines answers, given their answers and the size of the first. -/
def joinedAnswer (mode : Overflow) (operator : Operator) (size : Nat) : Answer → Answer → Answer
  | .fault fault, _ => .fault (fault.relocate (· + 3))
  | .value _, .fault fault => .fault (fault.relocate (· + (4 + size)))
  | .value a, .value b => .ofValue (Term.operationValue mode (operatorToken operator) a b)

/-- The operands are evaluated as they are on their own, the first one first. -/
theorem value_joined (operator : Operator) (size : Nat) (left right : Term) :
    Answer.ofValue ((joinedTerm operator size left right).value mode) =
      joinedAnswer mode operator size (.ofValue (left.value mode))
        (.ofValue (right.value mode)) := by
  have moved := left.value_relocate (f := (· + 3)) mode
  have moved' := right.value_relocate (f := (· + (4 + size))) mode
  cases result : left.value mode with
  | error error =>
    rw [result] at moved
    rw [joinedTerm, Term.value_operation_of_first moved]
    rfl
  | ok a =>
    rw [result] at moved
    cases result' : right.value mode with
    | error error =>
      rw [result'] at moved'
      rw [joinedTerm, Term.value_operation_of_second moved moved']
      rfl
    | ok b =>
      rw [result'] at moved'
      rw [joinedTerm, Term.value_operation_of_ok moved moved']
      rfl

end Joined

/-- Two lines that do not start with a minus sign and are read as terms, the first of them without a
token left behind, answer together under an operator: with the fault of the first, or else that of
the second, moved to where its line stands, or else with what the operator makes of their values. -/
theorem answer?_operation (operator : Operator) {first second : String} {left right : Term}
    (unsigned : first.toList.head? ≠ some '-') (unsigned' : second.toList.head? ≠ some '-')
    (success : Term.ofTokens (scan first) first.utf8ByteSize = .ok left)
    (success' : Term.ofTokens (scan second) second.utf8ByteSize = .ok right)
    (room : left.depth ≤ 1000) (room' : right.depth ≤ 1000)
    (whole : significant (Term.read first.utf8ByteSize (scan first)).2 = []) (mode : Overflow) :
    ∃ one other, answer? mode first = some one ∧ answer? mode second = some other ∧
      answer? mode ("(" ++ operator.text ++ " " ++ first ++ " " ++ second ++ ")") = some (
        match one, other with
        | .fault fault, _ => .fault (fault.relocate (· + 3))
        | .value _, .fault fault => .fault (fault.relocate (· + (4 + first.utf8ByteSize)))
        | .value a, .value b =>
          .ofValue (Term.operationValue mode ⟨.operator, operator.text, 1⟩ a b)) := by
  rw [Term.depth_eq_nesting] at room room'
  have listed : significant (scan first) = left.tokens := by
    obtain ⟨-, -, listed, -⟩ :=
      (Term.reads_readWithin first.utf8ByteSize Term.nestingLimit (scan first)).listed success
    rw [Term.read] at whole
    rw [listed, whole, List.append_nil]
  have read := ofTokens_joined operator unsigned unsigned' listed success success' room room'
  refine ⟨_, _, answer?_of_read success, answer?_of_read success', ?_⟩
  exact (answer?_of_read read).trans (congrArg some (value_joined operator _ left right))

/-- The sum of the second line overflows where the line stands behind the ten bytes of the first,
whose parentheses do not pair up. What follows the sum is passed over. -/
theorem answer?_operation_of_overflow :
    let first := "é(* 2 3))"
    let second := "+ 9223372036854775807 1 5) -"
    (first.toList.head? ≠ some '-' ∧ second.toList.head? ≠ some '-' ∧
      significant (Term.read first.utf8ByteSize (scan first)).2 = []) ∧
    answer? .checked first = some (.value 6) ∧
    answer? .checked second = some (.fault (.evaluation (.overflow 0))) ∧
    answer? .checked "(- é(* 2 3)) + 9223372036854775807 1 5) -)" =
      some (.fault (.evaluation (.overflow 14))) := by
  intro first second
  let product : Term := .operation ⟨.operator, "*", 3⟩ (.literal ⟨.number, "2", 5⟩)
    (.literal ⟨.number, "3", 7⟩)
  let sum : Term := .operation ⟨.operator, "+", 0⟩ (.literal ⟨.number, "9223372036854775807", 2⟩)
    (.literal ⟨.number, "1", 22⟩)
  have unsigned : first.toList.head? ≠ some '-' := by decide
  have unsigned' : second.toList.head? ≠ some '-' := by decide
  have success : Term.ofTokens (scan first) first.utf8ByteSize = .ok product :=
    Term.ofTokens_eq_ok_iff.mpr ⟨⟨rfl, rfl, rfl⟩, by decide, by decide +kernel⟩
  have success' : Term.ofTokens (scan second) second.utf8ByteSize = .ok sum :=
    Term.ofTokens_eq_ok_iff.mpr ⟨⟨rfl, rfl, rfl⟩, by decide, by decide +kernel⟩
  have whole : significant (Term.read first.utf8ByteSize (scan first)).2 = [] := by decide +kernel
  obtain ⟨one, other, answer, answer', together⟩ :=
    answer?_operation .subtract unsigned unsigned' success success' (by decide) (by decide) whole
      .checked
  have six : answer? .checked first = some (.value 6) := by decide +kernel
  have overflow : answer? .checked second = some (.fault (.evaluation (.overflow 0))) := by
    decide +kernel
  obtain rfl : one = .value 6 := Option.some_inj.mp (answer.symm.trans six)
  obtain rfl : other = .fault (.evaluation (.overflow 0)) :=
    Option.some_inj.mp (answer'.symm.trans overflow)
  exact ⟨⟨unsigned, unsigned', whole⟩, six, overflow, together⟩

end Line

end PrefixArith
