import PrefixArith.Proofs.Formula.Reach
import PrefixArith.Proofs.Random.Ledger

/-!
# The words of a formula

Which words a random formula takes, and what for, is said along its expression: a choice for each
operator, one for each literal, and a decision for each operand below which a level is left
(`Settings.Books`). Every formula that is drawn has such a ledger, and what the ledger holds can be
counted on the expression alone (`tally_booksAll`).
-/
namespace PrefixArith.Formula

open PrefixArith.Random

/-! ## Ledgers of expressions -/

/-- An operation takes words for its operator, and then for the first and the second operand. -/
inductive BooksOperation (operand : Ledger → Expression → Prop) : Ledger → Expression → Prop
  | operation {choice one other : Ledger} {n : Nat} {left right : Expression}
      (chosen : Chooses .operator 3 choice n) (first : operand one left)
        (second : operand other right) :
      BooksOperation operand (choice ++ (one ++ other)) (.operation (operatorAt n) left right)

/-- A literal takes the words of its choice. -/
inductive Settings.BooksLiteral (settings : Settings) : Ledger → Expression → Prop
  | literal {ledger : Ledger} {v : Int64}
      (chosen : ChoosesLiteral settings.least settings.greatest ledger v) :
      BooksLiteral settings ledger (.literal v)

/-- An operand takes the words of a decision, if a level is left for an operation, and then those of
what has been decided. -/
def Settings.BooksOperand (settings : Settings) : (levels : Nat) → Ledger → Expression → Prop
  | 0 => settings.BooksLiteral
  | levels + 1 => fun ledger e =>
    ∃ decision rest nests, ledger = decision ++ rest ∧ Decides settings.nesting decision nests ∧
      if nests then BooksOperation (settings.BooksOperand levels) rest e
      else settings.BooksLiteral rest e

/-- The ledger of a formula. -/
def Settings.Books (settings : Settings) : Ledger → Expression → Prop :=
  BooksOperation (settings.BooksOperand (settings.levels - 1))

/-- The ledger of formulas that are drawn one after the other. -/
inductive Settings.BooksAll (settings : Settings) : Ledger → List Expression → Prop
  | nil : BooksAll settings [] []
  | cons {ledger later : Ledger} {e : Expression} {others : List Expression}
      (own : settings.Books ledger e) (rest : BooksAll settings later others) :
      BooksAll settings (ledger ++ later) (e :: others)

theorem Settings.BooksAll.append {settings : Settings} {ledger later : Ledger}
    {expressions others : List Expression} (booked : settings.BooksAll ledger expressions)
    (rest : settings.BooksAll later others) :
    settings.BooksAll (ledger ++ later) (expressions ++ others) := by
  induction booked with
  | nil => exact rest
  | cons own _ ih =>
    rw [List.append_assoc, List.cons_append]
    exact .cons own ih

/-! ## Draws -/

section Draws
variable {settings : Settings} {patience : Nat}

theorem drawLiteral_keeps (settings : Settings) (patience : Nat) :
    Keeps (drawLiteral settings patience) settings.BooksLiteral :=
  (between_keeps settings.least settings.greatest patience).map fun chosen => .literal chosen

theorem drawWith_keeps {drawOperand : Draw Expression} {operand : Ledger → Expression → Prop}
    (keeps : Keeps drawOperand operand) :
    Keeps (drawWith patience drawOperand) (BooksOperation operand) := by
  have operator : Keeps (drawOperator patience) fun ledger operator =>
      ∃ n, Chooses .operator 3 ledger n ∧ operatorAt n = operator :=
    (below_keeps .operator 3 patience).map fun chosen => ⟨_, chosen, rfl⟩
  have second (operator : Operator) (left : Expression) :
      Keeps (do return Expression.operation operator left (← drawOperand)) fun ledger e =>
        ∃ right, operand ledger right ∧ .operation operator left right = e :=
    keeps.map fun booked => ⟨_, booked, rfl⟩
  have operands (operator : Operator) :
      Keeps (do
        let left ← drawOperand
        let right ← drawOperand
        return Expression.operation operator left right) fun ledger e =>
        ∃ one other left right, ledger = one ++ other ∧ operand one left ∧ operand other right ∧
          .operation operator left right = e := by
    refine keeps.bind _ (second operator) ?_
    rintro left e one other first ⟨right, second, rfl⟩
    exact ⟨one, other, left, right, rfl, first, second, rfl⟩
  refine operator.bind _ operands ?_
  rintro _ _ choice _ ⟨n, chosen, rfl⟩ ⟨one, other, left, right, rfl, first, second, rfl⟩
  exact .operation chosen first second

theorem drawOperand_keeps (settings : Settings) (patience levels : Nat) :
    Keeps (drawOperand settings patience levels) (settings.BooksOperand levels) := by
  induction levels with
  | zero => exact drawLiteral_keeps settings patience
  | succ levels ih =>
    refine (chance_keeps settings.nesting).bind (fun nests ledger e =>
      if nests then BooksOperation (settings.BooksOperand levels) ledger e
      else settings.BooksLiteral ledger e) (fun nests => ?_) ?_
    · cases nests with
      | true =>
        rw [if_pos rfl, drawOperation_eq]
        exact drawWith_keeps ih
      | false => exact drawLiteral_keeps settings patience
    · intro nests e decision rest decided booked
      exact ⟨decision, rest, nests, rfl, decided, booked⟩

/-- Every formula that is drawn has a ledger. -/
theorem draw_keeps (settings : Settings) (patience : Nat) :
    Keeps (draw settings patience) fun ledger formula =>
      ∃ e, settings.Books ledger e ∧ formula = text e := by
  have expression : Keeps (drawExpression settings patience) settings.Books := by
    rw [drawExpression, drawOperation_eq]
    exact drawWith_keeps (drawOperand_keeps settings patience _)
  exact expression.map fun booked => ⟨_, booked, rfl⟩

end Draws

/-! ## What a ledger holds -/

/-- The number of operands of operations at levels below the cap, if the expression itself stands at
the given level. -/
def Expression.operandsBelow (cap : Nat) : Expression → (level : Nat) → Nat
  | .literal _, _ => 0
  | .operation _ left right, level =>
    (if level < cap then 2 else 0) +
      (left.operandsBelow cap (level + 1) + right.operandsBelow cap (level + 1))

/-- How many words are taken to decide about some operands: one for each, unless nesting is sure. -/
def Settings.decisions (settings : Settings) (operands : Nat) : Nat :=
  if settings.nesting.isOne then 0 else operands

/-- The ledger has a word for each operator and each literal of the expression, and a number of
decisions. -/
structure Accounts (ledger : Ledger) (e : Expression) (decisions : Nat) : Prop where
  operators : tally .operator ledger = e.operations
  literals : tally .literal ledger = e.literals.length
  nesting : tally .nesting ledger = decisions

section Tallies
variable {settings : Settings} {ledger decision : Ledger} {e : Expression}

theorem Settings.decisions_add (settings : Settings) (m n : Nat) :
    settings.decisions m + settings.decisions n = settings.decisions (m + n) := by
  unfold Settings.decisions
  split <;> rfl

/-- A decision comes to one word at most, and to nothing else. -/
theorem Accounts.decided {nests : Bool} {decisions : Nat} (accounts : Accounts ledger e decisions)
    (decided : Decides settings.nesting decision nests) :
    Accounts (decision ++ ledger) e (settings.decisions 1 + decisions) := by
  refine ⟨?_, ?_, ?_⟩
  · rw [tally_append, decided.tally_eq, accounts.operators]
    simp
  · rw [tally_append, decided.tally_eq, accounts.literals]
    simp
  · rw [tally_append, decided.tally_eq, accounts.nesting, Settings.decisions]
    cases settings.nesting.isOne <;> simp

theorem accounts_booksLiteral (booked : settings.BooksLiteral ledger e) (cap level : Nat) :
    Accounts ledger e (settings.decisions (e.operandsBelow cap level)) := by
  cases booked with
  | literal chosen =>
    refine ⟨?_, ?_, ?_⟩
    · rw [chosen.tally_eq (by decide), if_neg (by decide), Expression.operations]
    · rw [chosen.tally_eq (by decide), if_pos rfl, Expression.literals, List.length_singleton]
    · rw [chosen.tally_eq (by decide), if_neg (by decide), Expression.operandsBelow,
        Settings.decisions, ite_self]

/-- If the operands of an operation account for what they hold, the operation does: its operator
comes to one word more. -/
theorem accounts_booksOperation {operand : Ledger → Expression → Prop} {cap level : Nat}
    (inside : ∀ {ledger e}, operand ledger e → Accounts ledger e (settings.decisions
      ((if level < cap then 1 else 0) + e.operandsBelow cap (level + 1))))
    (booked : BooksOperation operand ledger e) :
    Accounts ledger e (settings.decisions (e.operandsBelow cap level)) := by
  cases booked with
  | operation chosen first second =>
    have first := inside first
    have second := inside second
    refine ⟨?_, ?_, ?_⟩
    · rw [tally_append, tally_append, chosen.tally_eq (by decide), first.operators,
        second.operators, if_pos rfl, Expression.operations, Nat.add_comm]
    · rw [tally_append, tally_append, chosen.tally_eq (by decide), first.literals, second.literals,
        if_neg (by decide), Expression.literals, List.length_append, Nat.zero_add]
    · rw [tally_append, tally_append, chosen.tally_eq (by decide), first.nesting, second.nesting,
        if_neg (by decide), Nat.zero_add, Settings.decisions_add, Expression.operandsBelow]
      congr 1
      split <;> omega

/-- By induction on the levels that are left below an operation at the given level. -/
theorem accounts_booksOperand {levels level : Nat} (left : levels = settings.levels - level)
    (booked : settings.BooksOperand levels ledger e) :
    Accounts ledger e (settings.decisions
      ((if level < settings.levels then 1 else 0) + e.operandsBelow settings.levels
        (level + 1))) := by
  induction levels generalizing level ledger e with
  | zero =>
    have none : ¬ level < settings.levels := by omega
    rw [if_neg none, Nat.zero_add]
    exact accounts_booksLiteral booked _ _
  | succ levels ih =>
    obtain ⟨decision, rest, nests, rfl, decided, booked⟩ := booked
    have some : level < settings.levels := by omega
    rw [if_pos some, ← Settings.decisions_add]
    cases nests with
    | true =>
      have deeper : levels = settings.levels - (level + 1) := by omega
      exact (accounts_booksOperation (ih deeper) booked).decided decided
    | false => exact (accounts_booksLiteral booked _ _).decided decided

/-- The outermost operation stands at the first level. -/
theorem accounts_books (booked : settings.Books ledger e) :
    Accounts ledger e (settings.decisions (e.operandsBelow settings.levels 1)) :=
  accounts_booksOperation (accounts_booksOperand rfl) booked

/-- A ledger of several formulas holds what those of each of them hold. -/
theorem tally_booksAll {expressions : List Expression}
    (booked : settings.BooksAll ledger expressions) :
    tally .operator ledger = (expressions.map Expression.operations).sum ∧
    tally .literal ledger = (expressions.map fun e => e.literals.length).sum ∧
    tally .nesting ledger =
      settings.decisions (expressions.map fun e => e.operandsBelow settings.levels 1).sum := by
  induction booked with
  | nil => exact ⟨rfl, rfl, (ite_self 0).symm⟩
  | cons own rest ih =>
    have accounts := accounts_books own
    obtain ⟨operators, literals, nesting⟩ := ih
    simp only [tally_append, List.map_cons, List.sum_cons]
    rw [accounts.operators, accounts.literals, accounts.nesting, operators, literals, nesting,
      Settings.decisions_add]
    exact ⟨rfl, rfl, rfl⟩

end Tallies

end PrefixArith.Formula
