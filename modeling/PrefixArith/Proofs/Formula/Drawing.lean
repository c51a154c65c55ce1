import PrefixArith.Formula.Random
import PrefixArith.Proofs.Random.Draws

/-!
# The expressions that are drawn

Which operands the settings allow is said without the draw that picks them (`Settings.Allows`): how
far they may nest, where they have to, and which literals they hold. Every expression that is drawn
is an operation on such operands (`drawOperation_eq_some`), so what holds of all of them is shown by
induction on what is allowed.
-/
namespace PrefixArith.Formula

open PrefixArith.Random

theorem Settings.error?_eq_none {settings : Settings} :
    settings.error? = none ↔
      settings.least.toInt ≤ settings.greatest.toInt ∧ settings.nesting.isProbability = true := by
  unfold error?
  split
  · next empty => simp [Int.not_le.mpr empty]
  · next ordered =>
    rw [Int.not_lt] at ordered
    cases settings.nesting.isProbability <;> simp [ordered]

/-- The operands that may be drawn where `levels` more operations may stand inside one another. A
literal stands where no level is left or nesting is not sure, an operation where it is possible. -/
inductive Settings.Allows (settings : Settings) : (levels : Nat) → Expression → Prop where
  | literal {levels : Nat} {v : Int64} (low : settings.least.toInt ≤ v.toInt)
      (high : v.toInt ≤ settings.greatest.toInt)
      (closed : levels = 0 ∨ settings.nesting.isOne = false) : Allows settings levels (.literal v)
  | operation {levels : Nat} {operator : Operator} {left right : Expression}
      (possible : settings.nesting.isOne = true ∨ 0 < settings.nesting.scaled)
      (first : Allows settings levels left) (second : Allows settings levels right) :
      Allows settings (levels + 1) (.operation operator left right)

section Draws
variable {settings : Settings} {patience levels : Nat} {source after : Source} {e : Expression}

/-- An operation is drawn as its operator and then its operands, the left one first. -/
theorem drawWith_eq_some {drawOperand : Draw Expression}
    (drawn : (drawWith patience drawOperand).run source = some (e, after)) :
    ∃ operator left right start middle, e = .operation operator left right ∧
      (drawOperator patience).run source = some (operator, start) ∧
      drawOperand.run start = some (left, middle) ∧
        drawOperand.run middle = some (right, after) := by
  obtain ⟨operator, start, chosen, drawn⟩ := run_bind_eq_some.mp drawn
  obtain ⟨left, middle, first, drawn⟩ := run_bind_eq_some.mp drawn
  obtain ⟨right, rest, second, drawn⟩ := run_bind_eq_some.mp drawn
  obtain ⟨rfl, rfl⟩ := run_pure_eq_some.mp drawn
  exact ⟨operator, left, right, start, middle, rfl, chosen, first, second⟩

/-- A literal that is drawn is allowed where no operation has to stand. -/
theorem allows_of_drawLiteral (ordered : settings.least.toInt ≤ settings.greatest.toInt)
    (closed : levels = 0 ∨ settings.nesting.isOne = false)
    (drawn : (drawLiteral settings patience).run source = some (e, after)) :
    settings.Allows levels e := by
  obtain ⟨v, rest, picked, drawn⟩ := run_bind_eq_some.mp drawn
  obtain ⟨rfl, -⟩ := run_pure_eq_some.mp drawn
  obtain ⟨low, high⟩ := between_bounds ordered picked
  exact .literal low high closed

/-- Every operation that is drawn has operands that the settings allow where its levels are left. -/
theorem drawOperation_eq_some (ordered : settings.least.toInt ≤ settings.greatest.toInt)
    (drawn : (drawOperation settings patience levels).run source = some (e, after)) :
    ∃ operator left right, e = .operation operator left right ∧
      settings.Allows levels left ∧ settings.Allows levels right := by
  induction levels generalizing source after e with
  | zero =>
    obtain ⟨operator, left, right, start, middle, rfl, -, first, second⟩ := drawWith_eq_some drawn
    have allowed := allows_of_drawLiteral ordered (.inl rfl) first
    have allowed' := allows_of_drawLiteral ordered (.inl rfl) second
    exact ⟨operator, left, right, rfl, allowed, allowed'⟩
  | succ levels ih =>
    obtain ⟨operator, left, right, start, middle, rfl, -, first, second⟩ := drawWith_eq_some drawn
    have operand {source after : Source} {e : Expression}
        (drawn : (do
          if ← chance settings.nesting then drawOperation settings patience levels
          else drawLiteral settings patience : Draw Expression).run source = some (e, after)) :
        settings.Allows (levels + 1) e := by
      obtain ⟨nests, rest, decided, drawn⟩ := run_bind_eq_some.mp drawn
      obtain ⟨sure, possible⟩ := chance_eq decided
      cases nests with
      | true =>
        obtain ⟨operator, left, right, rfl, first, second⟩ := ih drawn
        exact .operation (possible rfl) first second
      | false =>
        refine allows_of_drawLiteral ordered (.inr ?_) drawn
        rw [Bool.eq_false_iff]
        intro one
        cases sure one
    exact ⟨operator, left, right, rfl, operand first, operand second⟩

/-- A formula is drawn as the text of an operation on operands that the settings allow. -/
theorem draw_eq_some (valid : settings.error? = none) {formula : String}
    (drawn : (draw settings patience).run source = some (formula, after)) :
    ∃ operator left right, formula = text (.operation operator left right) ∧
      settings.Allows (settings.levels - 1) left ∧ settings.Allows (settings.levels - 1) right := by
  obtain ⟨e, rest, expression, result⟩ := run_bind_eq_some.mp drawn
  obtain ⟨rfl, -⟩ := run_pure_eq_some.mp result
  obtain ⟨operator, left, right, rfl, first, second⟩ :=
    drawOperation_eq_some (Settings.error?_eq_none.mp valid).1 expression
  exact ⟨operator, left, right, rfl, first, second⟩

end Draws

/-! ## What is allowed -/

namespace Settings.Allows
variable {settings : Settings} {levels : Nat} {e : Expression}

theorem levels_le (allowed : settings.Allows levels e) : e.levels ≤ levels := by
  induction allowed with
  | literal => exact Nat.zero_le _
  | operation _ _ _ first second =>
    rw [Expression.levels]
    omega

/-- An operation on allowed operands needs one level more than they have. -/
theorem levels_operation_le {left right : Expression} (first : settings.Allows levels left)
    (second : settings.Allows levels right) (operator : Operator) :
    (Expression.operation operator left right).levels ≤ levels + 1 := by
  rw [Expression.levels]
  exact Nat.succ_le_succ (Nat.max_le.mpr ⟨first.levels_le, second.levels_le⟩)

end Settings.Allows

/-- All literals stand inside exactly `levels` operations. -/
def Expression.Full : (levels : Nat) → Expression → Prop
  | 0, .literal _ => True
  | levels + 1, .operation _ left right => left.Full levels ∧ right.Full levels
  | _, _ => False

namespace Expression
variable {levels : Nat} {e : Expression}

theorem full_zero : e.Full 0 ↔ ∃ v, e = .literal v := by
  cases e with
  | literal v => exact ⟨fun _ => ⟨v, rfl⟩, fun _ => trivial⟩
  | operation operator left right => exact ⟨False.elim, fun ⟨_, same⟩ => by cases same⟩

theorem full_succ :
    e.Full (levels + 1) ↔
      ∃ operator left right, e = .operation operator left right ∧ left.Full levels ∧
        right.Full levels := by
  cases e with
  | literal v => exact ⟨False.elim, fun ⟨_, _, _, same, _⟩ => by cases same⟩
  | operation operator left right =>
    constructor
    · intro full
      exact ⟨operator, left, right, rfl, full⟩
    · rintro ⟨_, _, _, same, full⟩
      cases same
      exact full

end Expression

/-- Where nesting is sure, all levels are used. -/
theorem Settings.Allows.full {settings : Settings} {levels : Nat} {e : Expression}
    (allowed : settings.Allows levels e) (sure : settings.nesting.isOne = true) :
    e.Full levels := by
  induction allowed with
  | literal low high closed =>
    rcases closed with rfl | unsure
    · trivial
    · rw [sure] at unsure
      cases unsure
  | operation _ _ _ first second => exact ⟨first, second⟩

/-! ## Draws that return -/

section Returns
variable {property : Source → Prop} {settings : Settings} {patience : Nat}

/-- A formula is drawn from every source on which each choice returns. -/
theorem draw_returnsOn (operator : ReturnsOn property (below 3 patience))
    (literal : ReturnsOn property (between settings.least settings.greatest patience))
    (nesting : ReturnsOn property (chance settings.nesting)) :
    ReturnsOn property (draw settings patience) := by
  have withOperands {drawOperand : Draw Expression} (operand : ReturnsOn property drawOperand) :
      ReturnsOn property (drawWith patience drawOperand) := by
    refine (operator.bind fun n => .ret _).bind fun operator => ?_
    exact operand.bind fun left => operand.bind fun right => .ret _
  have literals : ReturnsOn property (drawLiteral settings patience) := literal.bind fun v => .ret _
  have operations (levels : Nat) : ReturnsOn property (drawOperation settings patience levels) := by
    induction levels with
    | zero => exact withOperands literals
    | succ levels ih =>
      refine withOperands (nesting.bind fun nests => ?_)
      cases nests with
      | true => exact ih
      | false => exact literals
  exact (operations _).bind fun e => .ret _

theorem draw_returnsOn_zero (settings : Settings) (patience : Nat) :
    ReturnsOn Source.Zero (draw settings (patience + 1)) :=
  draw_returnsOn (below_returnsOn_zero 3 patience)
    (between_returnsOn_zero settings.least settings.greatest patience)
    (chance_returnsOn_zero settings.nesting)

end Returns

end PrefixArith.Formula
