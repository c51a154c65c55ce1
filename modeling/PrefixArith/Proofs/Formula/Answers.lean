import PrefixArith.Proofs.Formula.Drawing
import PrefixArith.Proofs.Formula.Reading

/-!
# Answers to random formulas

Every formula that is drawn with fewer than 1000 levels has a value, or overflows where that is
checked. With more levels and sure nesting none has: operators stand at every third byte behind
`simplify`, and the one inside 999 others is an application too many, so each formula is refused at
the same byte (`answer?_drawn`).
-/
namespace PrefixArith.Formula

open PrefixArith.Random

/-- An expression whose levels are all used puts an operator inside `count` others, three bytes for
each of them behind its own. -/
theorem firstTooDeep?_of_full {e : Expression} {levels count : Nat} (full : e.Full levels)
    (below : count < levels) {limit around : Nat} (reach : around + count = limit) (offset : Nat)
    (slots : List Nat) (rest : List Token) :
    ∃ operator : Operator,
      Token.firstTooDeep? limit (around :: slots) ((e.term.printedAt offset).tokens ++ rest) =
        some ⟨.operator, operator.text, offset + 3 * count + 1⟩ := by
  induction count generalizing e levels around offset slots rest with
  | zero =>
    obtain ⟨levels, rfl⟩ : ∃ n, levels = n + 1 := ⟨levels - 1, by omega⟩
    obtain ⟨operator, left, right, rfl, -⟩ := Expression.full_succ.mp full
    refine ⟨operator, ?_⟩
    rw [Expression.term, Term.printedAt, Term.tokens_operation, List.cons_append,
      Token.firstTooDeep?_of_tooDeep (by simp [Token.TooDeep, Token.relocate, ← reach])]
    rfl
  | succ count ih =>
    obtain ⟨levels, rfl⟩ : ∃ n, levels = n + 1 := ⟨levels - 1, by omega⟩
    obtain ⟨operator, left, right, rfl, inside, -⟩ := Expression.full_succ.mp full
    have room : around < limit := by omega
    have reach' : around + 1 + count = limit := by omega
    obtain ⟨found, first⟩ := ih inside (by omega) reach'
      (offset + operator.text.utf8ByteSize + 2) ((around + 1) :: slots) _
    refine ⟨found, ?_⟩
    rw [Expression.term, Term.printedAt, Term.tokens_operation, List.cons_append,
      List.append_assoc, Token.firstTooDeep?_operator rfl room, first, operator.utf8ByteSize_text]
    simp only [Option.some_inj, Token.mk.injEq, true_and]
    omega

/-- An expression whose levels are all used is refused at the first operator inside 999 others. -/
theorem answer?_text_of_full {e : Expression} {levels : Nat} (full : e.Full levels)
    (deep : 1000 ≤ levels) (mode : Overflow) :
    Line.answer? mode (text e) = some (.fault (.reading (.tooDeep 1000 3008))) := by
  have reach : 1 + 999 = Term.nestingLimit := rfl
  obtain ⟨operator, first⟩ := firstTooDeep?_of_full full deep reach 10 [] []
  have found : Token.firstTooDeep? Term.nestingLimit [0] (Token.significant (Token.scan (text e))) =
      some ⟨.operator, operator.text, 3008⟩ := by
    rw [significant_scan_text, term, Term.printedAt, Term.tokens_keyword,
      Token.firstTooDeep?_keyword rfl (by decide)]
    rwa [List.append_nil] at first
  exact Line.answer?_of_tooDeep (Term.ofTokens_eq_tooDeep found _)

/-- Whatever the words of the source, a formula that is drawn with at most 999 levels has a value
when results wrap around, and the same value or an overflow where that is checked. With more levels
and sure nesting every formula is refused, for the same operator in both ways of evaluation. -/
theorem answer?_drawn {settings : Settings} (valid : settings.error? = none) {patience : Nat}
    {source after : Source} {formula : String}
    (drawn : (draw settings patience).run source = some (formula, after)) :
    (settings.levels ≤ 999 →
      ∃ v, Line.answer? .wrapping formula = some (.value v) ∧
        (Line.answer? .checked formula = some (.value v) ∨
          ∃ offset, Line.answer? .checked formula =
            some (.fault (.evaluation (.overflow offset))))) ∧
    (1000 ≤ settings.levels → settings.nesting.isOne = true → ∀ mode,
      Line.answer? mode formula = some (.fault (.reading (.tooDeep 1000 3008)))) := by
  obtain ⟨operator, left, right, rfl, first, second⟩ := draw_eq_some valid drawn
  constructor
  · intro few
    have low := first.levels_le
    have low' := second.levels_le
    apply answer?_text
    rw [Expression.levels, Term.nestingLimit]
    omega
  · intro many sure mode
    have full : (Expression.operation operator left right).Full (settings.levels - 1 + 1) :=
      ⟨first.full sure, second.full sure⟩
    exact answer?_text_of_full full (by omega) mode

/-- Any words as literals, and at most one operation inside another. -/
def wide : Settings := { least := Int64.minValue, greatest := Int64.maxValue, levels := 2 }

/-- Words from which the settings `wide` draw a product of two literals. -/
def wideSource : Source :=
  .listed [0xC000000000000000, 0xF000000000000000, 0x7FFFFFFFFFFFFFFF, 0xF000000000000000, 2]

/-- As many levels as a formula may not have, all of them used. -/
def deep : Settings := { nesting := .finite false 1 0, levels := 1000 }

/-- A product that is no word is drawn from the whole range of literals. With 1000 levels and sure
nesting a formula is drawn as well, for instance from zeros, and refused. -/
theorem answer?_drawn_wide_and_deep :
    (wide.error? = none ∧ ∃ after,
      (draw wide 1).run wideSource = some ("(simplify (* 9223372036854775807 2))", after) ∧
        ∃ v, Line.answer? .wrapping "(simplify (* 9223372036854775807 2))" = some (.value v) ∧
          (Line.answer? .checked "(simplify (* 9223372036854775807 2))" = some (.value v) ∨
            ∃ offset, Line.answer? .checked "(simplify (* 9223372036854775807 2))" =
              some (.fault (.evaluation (.overflow offset))))) ∧
    (deep.error? = none ∧ ∃ formula after,
      (draw deep 1).run ⟨fun _ => 0, 0⟩ = some (formula, after) ∧
        ∀ mode, Line.answer? mode formula =
          some (.fault (.reading (.tooDeep 1000 3008)))) := by
  constructor
  · have valid : wide.error? = none := by decide
    have text : ((draw wide 1).run wideSource).map Prod.fst =
        some "(simplify (* 9223372036854775807 2))" := by decide +kernel
    obtain ⟨⟨_, after⟩, drawn, rfl⟩ := Option.map_eq_some_iff.mp text
    exact ⟨valid, after, drawn, (answer?_drawn valid drawn).1 (by decide)⟩
  · have valid : deep.error? = none := by decide
    have zero : Source.Zero ⟨fun _ => 0, 0⟩ := fun _ _ => rfl
    obtain ⟨formula, after, drawn, -⟩ := draw_returnsOn_zero deep 0 ⟨fun _ => 0, 0⟩ zero
    exact ⟨valid, formula, after, drawn, (answer?_drawn valid drawn).2 (by decide) (by decide)⟩

end PrefixArith.Formula
