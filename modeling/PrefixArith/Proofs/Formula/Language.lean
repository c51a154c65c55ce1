import PrefixArith.Proofs.Formula.Drawing
import PrefixArith.Proofs.Formula.Reading

/-!
# The language of random formulas

What the texts of random formulas look like is said by a grammar, without the expressions that they
are written from: `simplify` applied to an operation, whose operands are literals of the range or
operations again, with single spaces between the parts. Every formula that is drawn is such a text,
and within the limit of levels it is read as a term that is written the same
(`draw_writes_formula`).
-/
namespace PrefixArith.Formula

open PrefixArith.Random

/-- The parts of a formula that have texts of their own. -/
inductive Part where
  | formula | operation | operand
  deriving DecidableEq, Repr

/-- The texts of each part under the given settings, with a bound on how many operations stand
inside one another and the number of operators. -/
inductive Settings.Writes (settings : Settings) :
    Part → (levels operators : Nat) → String → Prop where
  | formula {levels operators : Nat} {text : String}
      (only : Writes settings .operation levels operators text) :
      Writes settings .formula levels operators ("(simplify " ++ text ++ ")")
  | operation {levels first second : Nat} {operator left right : String}
      (known : operator ∈ ["+", "-", "*"]) (one : Writes settings .operand levels first left)
      (other : Writes settings .operand levels second right) :
      Writes settings .operation (levels + 1) (first + second + 1)
        ("(" ++ operator ++ " " ++ left ++ " " ++ right ++ ")")
  | literal {levels : Nat} {z : Int} {text : String} (low : settings.least.toInt ≤ z)
      (high : z ≤ settings.greatest.toInt) (canonical : Decimal.Canonical z text) :
      Writes settings .operand levels 0 text
  | nested {levels operators : Nat} {text : String}
      (inside : Writes settings .operation levels operators text) :
      Writes settings .operand levels operators text

theorem mem_operators (operator : Operator) : operator.text ∈ ["+", "-", "*"] := by
  cases operator <;> decide

/-- What the settings allow as an operand is written as one. -/
theorem Settings.Allows.writes {settings : Settings} {levels : Nat} {e : Expression}
    (allowed : settings.Allows levels e) : settings.Writes .operand levels e.operations e.text := by
  induction allowed with
  | literal low high _ => exact .literal low high (Decimal.canonical_ofInt _)
  | operation _ _ _ first second => exact .nested (.operation (mem_operators _) first second)

theorem Expression.size_term (e : Expression) : e.term.size = 2 * e.operations + 1 := by
  induction e with
  | literal v => rfl
  | operation operator left right ihl ihr =>
    rw [term, Term.size, ihl, ihr, operations]
    omega

theorem size_term (e : Expression) : (term e).size = 2 * e.operations + 2 := by
  rw [term, Term.size, e.size_term]

/-- Whatever the words of the source, a formula that is drawn is `simplify` applied to an operation
in the language of the settings. With at most 999 levels it is read without a token left but
parentheses, as a term that is written the same; its size tells the number of operators, and its
depth how far they nest. -/
theorem draw_writes_formula {settings : Settings} (valid : settings.error? = none) {patience : Nat}
    {source after : Source} {formula : String}
    (drawn : (draw settings patience).run source = some (formula, after)) :
    ∃ operators, settings.Writes .formula (max 1 settings.levels) operators formula ∧
      (settings.levels ≤ 999 → ∃ term rest,
        Term.read formula.utf8ByteSize (Token.scan formula) = (.ok term, rest) ∧
        Token.significant rest = [] ∧ term.text = formula ∧ term.size = 2 * operators + 2 ∧
        3 ≤ term.depth ∧ term.depth ≤ max 1 settings.levels + 2) := by
  obtain ⟨operator, left, right, rfl, first, second⟩ := draw_eq_some valid drawn
  have low := first.levels_le
  have low' := second.levels_le
  have levels : settings.levels - 1 + 1 = max 1 settings.levels := by omega
  refine ⟨(Expression.operation operator left right).operations, ?_, fun few => ?_⟩
  · rw [← levels]
    exact .formula (.operation (mem_operators operator) first.writes second.writes)
  · have within : (Expression.operation operator left right).levels + 1 ≤ Term.nestingLimit := by
      rw [Expression.levels, Term.nestingLimit]
      omega
    obtain ⟨rest, read, nothing⟩ := read_scan_formula within _
    have same := (term (.operation operator left right)).printedAt_eqUpToOffsets 0
    refine ⟨_, rest, read, nothing, ?_, ?_, ?_⟩
    · rw [same.text_eq, text_term]
    · rw [same.size_eq, size_term]
    · rw [Term.depth_eq_nesting, same.nesting_eq, nesting_term, Expression.levels]
      omega

/-- From the whole range of literals the least word is drawn, behind the operator of a difference
with a sum inside it. -/
theorem draw_writes_difference :
    let settings : Settings := { least := Int64.minValue, greatest := Int64.maxValue, levels := 2 }
    let source : Source :=
      .listed [0x6000000000000000, 0xF000000000000000, 0x8000000000000000, 0, 0, 0, 5]
    let formula := "(simplify (- -9223372036854775808 (+ 0 5)))"
    settings.error? = none ∧ ∃ after, (draw settings 1).run source = some (formula, after) ∧
      ∃ operators, settings.Writes .formula 2 operators formula ∧ ∃ term rest,
        Term.read formula.utf8ByteSize (Token.scan formula) = (.ok term, rest) ∧
        Token.significant rest = [] ∧ term.text = formula ∧ term.size = 2 * operators + 2 ∧
        3 ≤ term.depth ∧ term.depth ≤ 4 := by
  intro settings source formula
  have valid : settings.error? = none := by decide
  have text : ((draw settings 1).run source).map Prod.fst = some formula := by decide +kernel
  obtain ⟨⟨_, after⟩, drawn, rfl⟩ := Option.map_eq_some_iff.mp text
  obtain ⟨operators, written, reads⟩ := draw_writes_formula valid drawn
  exact ⟨valid, after, drawn, operators, written, reads (by decide)⟩

end PrefixArith.Formula
