import PrefixArith.Proofs.Formula.Ledger
import PrefixArith.Proofs.Random.Verdicts

/-!
# Random formulas are made of uniform choices

Each operator of a formula has been selected by a word, and so has each literal; the other words
that its choices take are rejected (`spells_books`). Of all words the same number selects each
operator, and the same number each literal of the range (`choices_are_uniform`).
-/
namespace PrefixArith.Formula

open PrefixArith.Random

/-! ## What words select -/

theorem drawOperator_judged : Judged drawOperator fun word => (selected? 3 word).map operatorAt :=
  (below_judged 3).map operatorAt

section Literals
variable (settings : Settings)

theorem drawLiteral_judged : Judged (drawLiteral settings) fun word =>
    (selectedWord? settings.least settings.greatest word).map Expression.literal :=
  (between_judged settings.least settings.greatest).map Expression.literal

theorem selects_literal_iff {word : UInt64} {v : Int64} :
    Selects (drawLiteral settings) word (.literal v) ↔
      selectedWord? settings.least settings.greatest word = some v := by
  rw [(drawLiteral_judged settings).selects_iff, Option.map_eq_some_iff]
  simp

end Literals

theorem ncard_selects_operator (operator : Operator) :
    {word | Selects drawOperator word operator}.ncard = 2 ^ 62 := by
  obtain ⟨number, inside, only⟩ := exists_number operator
  have chosen :
    {word | Selects drawOperator word operator} = {word | selected? 3 word = some number} := by
    ext word
    rw [Set.mem_ofPred_eq, Set.mem_ofPred_eq, drawOperator_judged.selects_iff,
      Option.map_eq_some_iff]
    constructor
    · rintro ⟨n, selects, named⟩
      rwa [← (only n (selected?_lt (by decide) selects)).mp named]
    · intro selects
      exact ⟨number, selects, (only number inside).mpr rfl⟩
  have zeros : leadingZeros 3 = 62 := by decide
  rw [chosen, ncard_selected? inside (by decide), zeros]

/-! ## What the words of a formula select -/

/-- The operators, each before those of its operands. -/
def Expression.operators : Expression → List Operator
  | .literal _ => []
  | .operation operator left right => operator :: (left.operators ++ right.operators)

/-- The words of the ledger that are taken for operators select the given ones, and those for
literals the given literals, in order. Words that are rejected are so by one of the two choices. -/
structure Spells (settings : Settings) (ledger : Ledger) (operators : List Operator)
    (literals : List Int64) : Prop where
  operator : List.Forall₂ (Selects drawOperator) (wordsFor .operator ledger) operators
  literal : List.Forall₂ (fun word v => Selects (drawLiteral settings) word (.literal v))
    (wordsFor .literal ledger) literals
  rejected : ∀ word ∈ wordsFor .rejected ledger,
    Rejects drawOperator word ∨ Rejects (drawLiteral settings) word

section Spells
variable {settings : Settings} {ledger later : Ledger} {word : UInt64}

theorem Spells.append {operators operators' : List Operator} {literals literals' : List Int64}
    (spells : Spells settings ledger operators literals)
    (spells' : Spells settings later operators' literals') :
    Spells settings (ledger ++ later) (operators ++ operators') (literals ++ literals') where
  operator := by
    rw [wordsFor_append]
    exact List.rel_append spells.operator spells'.operator
  literal := by
    rw [wordsFor_append]
    exact List.rel_append spells.literal spells'.literal
  rejected := by
    rw [wordsFor_append, List.forall_mem_append]
    exact ⟨spells.rejected, spells'.rejected⟩

/-! ## Ledgers of one word -/

theorem spells_selected_operator {operator : Operator}
    (selects : Selects drawOperator word operator) :
    Spells settings [⟨word, .operator⟩] [operator] [] :=
  ⟨.cons selects .nil, .nil, by simp [wordsFor]⟩

theorem spells_selected_literal {v : Int64}
    (selects : Selects (drawLiteral settings) word (.literal v)) :
    Spells settings [⟨word, .literal⟩] [] [v] :=
  ⟨.nil, .cons selects .nil, by simp [wordsFor]⟩

theorem spells_rejected
    (rejects : Rejects drawOperator word ∨ Rejects (drawLiteral settings) word) :
    Spells settings [⟨word, .rejected⟩] [] [] :=
  ⟨.nil, .nil, by simpa [wordsFor] using rejects⟩

/-! ## Choices -/

theorem spells_operator {n : Nat} (chosen : Chooses .operator 3 ledger n) :
    Spells settings ledger [operatorAt n] [] := by
  induction chosen with
  | selected selects =>
    exact spells_selected_operator
      (drawOperator_judged.selects (Option.map_eq_some_iff.mpr ⟨_, selects, rfl⟩))
  | rejected rejects later ih =>
    have refused := drawOperator_judged.rejects (Option.map_eq_none_iff.mpr rejects)
    exact (spells_rejected (.inl refused)).append ih

/-- Literals of a part of all words. -/
theorem spells_part {n : Nat}
    (few : (settings.greatest.toInt - settings.least.toInt + 1).toNat ≠ UInt64.size)
    (chosen : Chooses .literal (settings.greatest.toInt - settings.least.toInt + 1).toNat ledger
      n) :
    Spells settings ledger [] [Int64.ofInt (settings.least.toInt + n)] := by
  induction chosen with
  | selected selects =>
    refine spells_selected_literal ((selects_literal_iff settings).mpr ?_)
    rw [selectedWord?, if_neg few, selects, Option.map_some]
  | rejected rejects later ih =>
    refine (spells_rejected (.inr ((drawLiteral_judged settings).rejects ?_))).append ih
    rw [selectedWord?, if_neg few, rejects, Option.map_none, Option.map_none]

theorem spells_literal {v : Int64}
    (chosen : ChoosesLiteral settings.least settings.greatest ledger v) :
    Spells settings ledger [] [v] := by
  cases chosen with
  | whole all => exact spells_selected_literal ((selects_literal_iff settings).mpr (if_pos all))
  | part few chosen => exact spells_part few chosen

theorem spells_decision {nests : Bool} (decided : Decides settings.nesting ledger nests) :
    Spells settings ledger [] [] := by
  cases decided with
  | sure one => exact ⟨.nil, .nil, by simp [wordsFor]⟩
  | drawn unsure => exact ⟨.nil, .nil, by simp [wordsFor]⟩

/-! ## Expressions -/

theorem spells_booksLiteral {e : Expression} (booked : settings.BooksLiteral ledger e) :
    Spells settings ledger e.operators e.literals := by
  cases booked with
  | literal chosen => exact spells_literal chosen

/-- The operator comes first, then what the operands are made of. -/
theorem spells_booksOperation {operand : Ledger → Expression → Prop} {e : Expression}
    (inside : ∀ {ledger e}, operand ledger e → Spells settings ledger e.operators e.literals)
    (booked : BooksOperation operand ledger e) : Spells settings ledger e.operators e.literals := by
  cases booked with
  | operation chosen first second =>
    exact (spells_operator chosen).append ((inside first).append (inside second))

/-- By induction on the levels that are left. -/
theorem spells_booksOperand {levels : Nat} {e : Expression}
    (booked : settings.BooksOperand levels ledger e) :
    Spells settings ledger e.operators e.literals := by
  induction levels generalizing ledger e with
  | zero => exact spells_booksLiteral booked
  | succ levels ih =>
    obtain ⟨decision, rest, nests, rfl, decided, booked⟩ := booked
    have decides : Spells settings decision [] [] := spells_decision decided
    cases nests with
    | true => exact decides.append (spells_booksOperation ih booked)
    | false => exact decides.append (spells_booksLiteral booked)

/-- The words of a formula select its operators and its literals. -/
theorem spells_books {e : Expression} (booked : settings.Books ledger e) :
    Spells settings ledger e.operators e.literals :=
  spells_booksOperation spells_booksOperand booked

end Spells

/-- With valid settings all words that are taken for the operators and the literals of a formula
have selected them, and no other word is taken for them but such as are rejected, after which the
choice goes on with the next word. Wherever a choice is made, each operator is selected by the same
number of words, a quarter of all, and the rest is rejected. If not all words are literals, each
literal of the range is selected by the same number of words, a power of two, and the rest is
rejected; otherwise it is selected by one word, and none is rejected. -/
theorem choices_are_uniform {settings : Settings} (valid : settings.error? = none) :
    let range := (settings.greatest.toInt - settings.least.toInt + 1).toNat
    (∀ patience source formula after, (draw settings patience).run source = some (formula, after) →
      ∃ (e : Expression) (ledger : Ledger), formula = text e ∧
        source.Begins (ledger.map Entry.word) ∧ after = source.skip ledger.length ∧
        Spells settings ledger e.operators e.literals) ∧
    ((∀ operator, {word | Selects drawOperator word operator}.ncard = 2 ^ 62) ∧
      ∀ word, Rejects drawOperator word ↔ ∀ operator, ¬ Selects drawOperator word operator) ∧
    (range < 2 ^ 64 →
      (∀ v : Int64, settings.least.toInt ≤ v.toInt → v.toInt ≤ settings.greatest.toInt →
        {word | Selects (drawLiteral settings) word (.literal v)}.ncard = 2 ^ leadingZeros range) ∧
      ∀ word, Rejects (drawLiteral settings) word ↔
        ∀ v : Int64, settings.least.toInt ≤ v.toInt → v.toInt ≤ settings.greatest.toInt →
          ¬ Selects (drawLiteral settings) word (.literal v)) ∧
    (range = 2 ^ 64 →
      (∀ v, {word | Selects (drawLiteral settings) word (.literal v)}.ncard = 1) ∧
      ∀ word, ¬ Rejects (drawLiteral settings) word) := by
  intro range
  have ordered : settings.least.toInt ≤ settings.greatest.toInt :=
    (Settings.error?_eq_none.mp valid).1
  refine ⟨?_, ⟨ncard_selects_operator, fun word => drawOperator_judged.rejects_iff⟩, ?_, ?_⟩
  · intro patience source formula after drawn
    obtain ⟨ledger, ⟨e, booked, rfl⟩, begins, yields⟩ :=
      draw_keeps settings patience source formula after drawn
    have same := drawn.symm.trans (yields source begins)
    rw [Option.some_inj, Prod.mk.injEq, List.length_map] at same
    exact ⟨e, ledger, rfl, begins, same.2, spells_books booked⟩
  · intro few
    refine ⟨fun v above below => ?_, fun word =>
      ⟨fun rejects v _ _ => rejects.not_selects, fun none => ?_⟩⟩
    · simp only [selects_literal_iff]
      exact ncard_selectedWord? above below few
    · refine (drawLiteral_judged settings).rejects (Option.map_eq_none_iff.mpr ?_)
      refine Option.eq_none_iff_forall_ne_some.mpr fun v selects => ?_
      obtain ⟨above, below, -⟩ := (selectedWord?_eq_some_iff ordered few).mp selects
      exact none v above below ((selects_literal_iff settings).mpr selects)
  · intro all
    refine ⟨fun v => ?_, fun word rejects => ?_⟩
    · simp only [selects_literal_iff]
      exact ncard_selectedWord?_of_all all v
    · exact rejects.not_selects ((selects_literal_iff settings).mpr (selectedWord?_of_all all word))

/-- The range of the twenty default literals has 59 leading zeros; if all words are literals, each
of them has one word. -/
theorem choices_are_uniform_of_default :
    let settings : Settings := {}
    let widest : Settings := { least := Int64.minValue, greatest := Int64.maxValue }
    (settings.error? = none ∧ {word | Selects drawOperator word .subtract}.ncard = 2 ^ 62 ∧
      {word | Selects (drawLiteral settings) word (.literal (-10))}.ncard = 2 ^ 59) ∧
    (widest.error? = none ∧
      {word | Selects (drawLiteral widest) word (.literal (-1))}.ncard = 1) := by
  intro settings widest
  have valid : settings.error? = none := by decide
  have valid' : widest.error? = none := by decide
  obtain ⟨-, ⟨operators, -⟩, part, -⟩ := choices_are_uniform valid
  obtain ⟨-, -, -, all⟩ := choices_are_uniform valid'
  have literals := (part (by decide)).1 (-10) (by decide) (by decide)
  have zeros :
      leadingZeros (settings.greatest.toInt - settings.least.toInt + 1).toNat = 59 := by decide
  rw [zeros] at literals
  exact ⟨⟨valid, operators .subtract, literals⟩, valid', (all (by decide)).1 (-1)⟩

end PrefixArith.Formula
