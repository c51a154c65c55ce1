import PrefixArith.Proofs.Term.Wrapping

/-!
# Which fault is reported

Evaluation is compared with one pass over the nodes of a term in post-order, which has no recursion
to leave and no order of its own. The pass keeps the values that no node has used yet, the last one
first. Each node takes the values of its operands from there and puts its own in their place
(`Steps`), or fails (`Fails`). The fault of a term is that of the first node in the pass that fails
(`first_failing_step_is_reported`).
-/
namespace PrefixArith.Term
open Decimal (Numeral Fits)

/-- The own step of a node, from the values before it to those behind it. -/
inductive Steps (mode : Overflow) : Term → List Int64 → List Int64 → Prop
  | literal {token : Token} {values : List Int64} {v : Int64}
    (numeral : Numeral v.toInt token.text) :
      Steps mode (.literal token) values (v :: values)
  | simplify {token : Token} {operand : Term} {values : List Int64} {a : Int64}
      (text : token.text = "simplify") :
      Steps mode (.keyword token operand) (a :: values) (a :: values)
  | operation {token : Token} {left right : Term} {values : List Int64} {a b : Int64}
      {operator : Operator} (known : Operator.ofText? token.text = some operator)
      (within : mode = .checked → Fits (operator.onInts a.toInt b.toInt)) :
      Steps mode (.operation token left right) (b :: a :: values) (operator.onWords a b :: values)

/-- The own step of a node fails on the values before it. -/
inductive Fails (mode : Overflow) : Term → List Int64 → EvalError → Prop
  | literal {token : Token} {values : List Int64} (refused : ¬ ∃ z, Numeral z token.text ∧ Fits z) :
      Fails mode (.literal token) values (.badLiteral token.text token.offset)
  | keyword {token : Token} {operand : Term} {values : List Int64} {a : Int64}
      (unknown : token.text ≠ "simplify") :
      Fails mode (.keyword token operand) (a :: values) (.unsupported token.text token.offset)
  | operator {token : Token} {left right : Term} {values : List Int64} {a b : Int64}
      (unknown : token.text ∉ ["+", "-", "*"]) :
      Fails mode (.operation token left right) (b :: a :: values)
        (.unsupported token.text token.offset)
  | overflow {token : Token} {left right : Term} {values : List Int64} {a b : Int64}
      {operator : Operator} (checked : mode = .checked)
      (known : Operator.ofText? token.text = some operator)
      (exceeds : ¬ Fits (operator.onInts a.toInt b.toInt)) :
      Fails mode (.operation token left right) (b :: a :: values) (.overflow token.offset)

/-- The nodes step one after the other. -/
inductive Passes (mode : Overflow) : List Term → List Int64 → List Int64 → Prop
  | done {values : List Int64} : Passes mode [] values values
  | step {node : Term} {nodes : List Term} {values next after : List Int64}
      (own : node.Steps mode values next) (later : Passes mode nodes next after) :
      Passes mode (node :: nodes) values after

/-- In the pass over the term the nodes before `node` step, and `node` is the first to fail. -/
def FirstFails (mode : Overflow) (term : Term) (before : List Term) (node : Term)
    (error : EvalError) :
    Prop :=
  ∃ after values, term.postorder = before ++ node :: after ∧ Passes mode before [] values ∧
    node.Fails mode values error

variable {mode : Overflow}

/-! ## One step -/

/-- Only the three signs name operators. -/
theorem mem_signs_of_ofText? {text : String} {operator : Operator}
    (known : Operator.ofText? text = some operator) : text ∈ ["+", "-", "*"] := by
  apply Operator.isSome_ofText?_iff.mp
  rw [known, Option.isSome_some]

section Step
variable {node : Term} {values next next' : List Int64} {error error' : EvalError}

theorem Steps.unique (steps : node.Steps mode values next) (steps' : node.Steps mode values next') :
    next' = next := by
  cases steps with
  | literal numeral =>
    cases steps' with
    | literal numeral' =>
      have same := Decimal.intOfChars?_eq_some_iff.mpr numeral
      rw [Decimal.intOfChars?_eq_some_iff.mpr numeral', Option.some_inj, Int64.toInt_inj] at same
      rw [same]
  | simplify text =>
    cases steps' with
    | simplify text' => rfl
  | operation known within =>
    cases steps' with
    | operation known' within' =>
      rw [known, Option.some_inj] at known'
      rw [known']

/-- A node that fails does not step. -/
theorem Fails.not_steps (fails : node.Fails mode values error) : ¬ node.Steps mode values next := by
  intro steps
  cases steps with
  | @literal token values v numeral =>
    cases fails with
    | literal refused => exact refused ⟨v.toInt, numeral, Decimal.fits_toInt v⟩
  | simplify text =>
    cases fails with
    | keyword unknown => exact unknown text
  | operation known within =>
    cases fails with
    | operator unknown => exact unknown (mem_signs_of_ofText? known)
    | overflow checked known' exceeds =>
      rw [known, Option.some_inj] at known'
      rw [← known'] at exceeds
      exact exceeds (within checked)

theorem Fails.unique (fails : node.Fails mode values error)
    (fails' : node.Fails mode values error') :
    error' = error := by
  cases fails with
  | literal refused =>
    cases fails'
    rfl
  | keyword unknown =>
    cases fails'
    rfl
  | operator unknown =>
    cases fails' with
    | operator unknown' => rfl
    | overflow checked known exceeds =>
      exact absurd (mem_signs_of_ofText? known) unknown
  | overflow checked known exceeds =>
    cases fails' with
    | operator unknown => exact absurd (mem_signs_of_ofText? known) unknown
    | overflow checked' known' exceeds' => rfl

end Step

/-! ## What evaluation does at a node -/

section Node
variable {token : Token} {operand left right : Term} {a b v : Int64} {error : EvalError}

theorem steps_of_literalValue (success : literalValue token.text token.offset = .ok v)
    (values : List Int64) : (literal token).Steps mode values (v :: values) := by
  unfold literalValue Decimal.int64OfText? at success
  cases read : Decimal.intOfChars? token.text.toList with
  | none =>
    rw [read] at success
    cases success
  | some z =>
    simp only [read] at success
    by_cases fits : Fits z
    · rw [if_pos fits] at success
      cases success
      refine .literal ?_
      rw [Decimal.toInt_ofInt fits]
      exact Decimal.intOfChars?_eq_some_iff.mp read
    · rw [if_neg fits] at success
      cases success

theorem fails_of_literalValue (failure : literalValue token.text token.offset = .error error)
    (values : List Int64) : (literal token).Fails mode values error := by
  cases read : Decimal.int64OfText? token.text with
  | some v =>
    rw [literalValue, read] at failure
    cases failure
  | none =>
    rw [literalValue, read] at failure
    cases failure
    refine .literal ?_
    rintro ⟨z, numeral, fits⟩
    exact Decimal.not_fits_of_refused (Decimal.intOfChars?_eq_some_iff.mpr numeral) read fits

theorem steps_of_keywordValue (success : keywordValue token a = .ok v) (values : List Int64) :
    (keyword token operand).Steps mode (a :: values) (v :: values) := by
  unfold keywordValue at success
  split at success
  · next text =>
    cases success
    exact .simplify text
  · cases success

theorem fails_of_keywordValue (failure : keywordValue token a = .error error)
    (values : List Int64) :
    (keyword token operand).Fails mode (a :: values) error := by
  unfold keywordValue at failure
  split at failure
  · cases failure
  · next unknown =>
    cases failure
    exact .keyword unknown

theorem steps_of_operationValue (success : operationValue mode token a b = .ok v)
    (values : List Int64) :
    (operation token left right).Steps mode (b :: a :: values) (v :: values) := by
  cases known : Operator.ofText? token.text with
  | none => simp [operationValue, known] at success
  | some operator =>
    simp only [operationValue, known] at success
    split at success
    · cases success
    · next within =>
      cases success
      refine .operation known fun checked => ?_
      simpa [checked, Operator.overflows] using within

theorem fails_of_operationValue (failure : operationValue mode token a b = .error error)
    (values : List Int64) :
    (operation token left right).Fails mode (b :: a :: values) error := by
  cases known : Operator.ofText? token.text with
  | none =>
    simp only [operationValue, known] at failure
    cases failure
    refine .operator fun mem => ?_
    have known' := Operator.isSome_ofText?_iff.mpr mem
    rw [known] at known'
    cases known'
  | some operator =>
    simp only [operationValue, known] at failure
    split at failure
    · next exceeds =>
      cases failure
      exact .overflow exceeds.1 known (by simpa [Operator.overflows] using exceeds.2)
    · cases failure

end Node

/-! ## The pass -/

section Pass
variable {nodes more : List Term} {values middle after after' : List Int64}

theorem Passes.append (passes : Passes mode nodes values middle)
    (later : Passes mode more middle after) :
    Passes mode (nodes ++ more) values after := by
  induction passes with
  | done => exact later
  | step own _ ih => exact .step own (ih later)

theorem passes_singleton {node : Term} (steps : node.Steps mode values after) :
    Passes mode [node] values after := .step steps .done

/-- What a pass comes to behind some of its nodes does not depend on the others. -/
theorem Passes.behind (passes : Passes mode (nodes ++ more) values after)
    (first : Passes mode nodes values middle) : Passes mode more middle after := by
  induction first with
  | done => exact passes
  | step own _ ih =>
    cases passes with
    | step own' later =>
      rw [own.unique own'] at later
      exact ih later

theorem Passes.unique (passes : Passes mode nodes values after)
    (passes' : Passes mode nodes values after') : after' = after := by
  rw [← List.append_nil nodes] at passes
  cases passes.behind passes'
  rfl

/-- A pass does not come past a node that fails. -/
theorem Passes.not_fails {node : Term} {error : EvalError}
    (passes : Passes mode (nodes ++ node :: more) values after)
    (first : Passes mode nodes values middle) : ¬ node.Fails mode middle error := by
  intro fails
  cases passes.behind first with
  | step own _ => exact fails.not_steps own

end Pass

/-! ## Evaluation as a pass -/

/-- A term with a value is passed, and leaves its value before those there were. -/
theorem passes_of_value {term : Term} {v : Int64} (success : term.value mode = .ok v)
    (values : List Int64) : Passes mode term.postorder values (v :: values) := by
  induction term generalizing v values with
  | literal token => exact passes_singleton (steps_of_literalValue success values)
  | keyword token operand ih =>
    obtain ⟨a, only, result⟩ := value_keyword_eq_ok success
    exact (ih only values).append (passes_singleton (steps_of_keywordValue result values))
  | operation token left right ihl ihr =>
    obtain ⟨a, b, first, second, result⟩ := value_operation_eq_ok success
    have last : Passes mode [.operation token left right] (b :: a :: values) (v :: values) :=
      passes_singleton (steps_of_operationValue result values)
    exact (ihl first values).append ((ihr second (a :: values)).append last)

/-- A term with a fault is passed up to a node that fails with it. -/
theorem exists_fails_of_value {term : Term} {error : EvalError}
    (failure : term.value mode = .error error) (values : List Int64) :
    ∃ before node after reached, term.postorder = before ++ node :: after ∧
      Passes mode before values reached ∧ node.Fails mode reached error := by
  induction term generalizing values with
  | literal token => exact ⟨[], _, [], values, rfl, .done, fails_of_literalValue failure values⟩
  | keyword token operand ih =>
    rcases value_keyword_eq_error failure with inside | ⟨a, only, own⟩
    · obtain ⟨before, node, after, reached, order, passes, fails⟩ := ih inside values
      refine ⟨before, node, after ++ [.keyword token operand], reached, ?_, passes, fails⟩
      rw [postorder, order, List.append_assoc, List.cons_append]
    · exact ⟨operand.postorder, _, [], _, rfl, passes_of_value only values,
        fails_of_keywordValue own values⟩
  | operation token left right ihl ihr =>
    rcases value_operation_eq_error failure with inside | ⟨a, first, inside | ⟨b, second, own⟩⟩
    · obtain ⟨before, node, after, reached, order, passes, fails⟩ := ihl inside values
      refine ⟨before, node, after ++ (right.postorder ++ [.operation token left right]),
        reached, ?_, passes, fails⟩
      rw [postorder, order, List.append_assoc, List.cons_append]
    · obtain ⟨before, node, after, reached, order, passes, fails⟩ := ihr inside (a :: values)
      refine ⟨left.postorder ++ before, node, after ++ [.operation token left right], reached, ?_,
        (passes_of_value first values).append passes, fails⟩
      rw [postorder, order, List.append_assoc, List.append_assoc, List.cons_append]
    · refine ⟨left.postorder ++ right.postorder, .operation token left right, [],
        b :: a :: values, ?_,
        (passes_of_value first values).append (passes_of_value second (a :: values)),
        fails_of_operationValue own values⟩
      rw [postorder, List.append_assoc]

section FirstFails
variable {term node node' : Term} {before before' : List Term} {error error' : EvalError}

/-- Behind the first node to fail there is no other. -/
theorem FirstFails.of_append {between : List Term} (first : term.FirstFails mode before node error)
    (first' : term.FirstFails mode (before ++ between) node' error') :
    between = [] ∧ node' = node ∧ error' = error := by
  obtain ⟨after, values, order, passes, fails⟩ := first
  obtain ⟨after', values', order', passes', fails'⟩ := first'
  rw [order, List.append_assoc, List.append_cancel_left_eq] at order'
  cases between with
  | nil =>
    obtain ⟨rfl, -⟩ := List.cons.inj order'
    rw [List.append_nil] at passes'
    rw [passes.unique passes'] at fails'
    exact ⟨rfl, rfl, fails.unique fails'⟩
  | cons first between =>
    obtain ⟨rfl, -⟩ := List.cons.inj order'
    exact absurd fails (passes'.not_fails passes)

theorem FirstFails.unique (first : term.FirstFails mode before node error)
    (first' : term.FirstFails mode before' node' error') :
    before' = before ∧ node' = node ∧ error' = error := by
  have ⟨after, values, order, _⟩ := first
  have ⟨after', values', order', _⟩ := first'
  rw [order] at order'
  rcases List.append_eq_append_iff.mp order' with ⟨between, rfl, -⟩ | ⟨between, rfl, -⟩
  · obtain ⟨rfl, node, error⟩ := first.of_append first'
    exact ⟨List.append_nil before, node, error⟩
  · obtain ⟨rfl, node, error⟩ := first'.of_append first
    exact ⟨(List.append_nil before').symm, node.symm, error.symm⟩

end FirstFails

/-- A term has a fault exactly if in the pass over its nodes, left operand before right one and both
before the node itself, some node fails whose predecessors all step. That node is the only one, and
its fault is the one reported, whatever else is wrong behind it or around it. A term has a value
exactly if all its nodes step, and then it is the one that is left. -/
theorem first_failing_step_is_reported (mode : Overflow) (term : Term) :
    (∀ error, term.value mode = .error error ↔
      ∃ before node, term.FirstFails mode before node error) ∧
    (∀ before node error before' node' error', term.FirstFails mode before node error →
      term.FirstFails mode before' node' error' →
      before' = before ∧ node' = node ∧ error' = error) ∧
    ∀ v, term.value mode = .ok v ↔ Passes mode term.postorder [] [v] := by
  have reported {error : EvalError} (failure : term.value mode = .error error) :
      ∃ before node, term.FirstFails mode before node error := by
    obtain ⟨before, node, after, values, order, passes, fails⟩ := exists_fails_of_value failure []
    exact ⟨before, node, after, values, order, passes, fails⟩
  refine ⟨fun error => ⟨reported, ?_⟩, fun _ _ _ _ _ _ => FirstFails.unique, fun v => ⟨?_, ?_⟩⟩
  · rintro ⟨before, node, first⟩
    cases result : term.value mode with
    | error error' =>
      obtain ⟨before', node', first'⟩ := reported result
      rw [(first.unique first').2.2]
    | ok v =>
      obtain ⟨after, values, order, passes, fails⟩ := first
      have all := passes_of_value result []
      rw [order] at all
      exact absurd fails (all.not_fails passes)
  · intro success
    exact passes_of_value success []
  · intro all
    cases result : term.value mode with
    | ok w =>
      have same := all.unique (passes_of_value result [])
      rw [List.cons.injEq] at same
      rw [same.1]
    | error error =>
      obtain ⟨before, node, after, values, order, passes, fails⟩ := reported result
      rw [order] at all
      exact absurd fails (all.not_fails passes)

/-- A literal that is no word is reported before the unknown keyword around it, and an overflow of
the first operand before that literal. -/
example :
    let literal : Term := .keyword ⟨.keyword, "foo", 30⟩ (.literal ⟨.number, "-", 34⟩)
    let sum : Term := .operation ⟨.operator, "+", 4⟩ (.literal ⟨.number, "9223372036854775807", 6⟩)
      (.literal ⟨.number, "1", 26⟩)
    let product : Term := .operation ⟨.operator, "/", 1⟩ sum literal
    product.value .wrapping = .error (.badLiteral "-" 34) ∧
      product.value .checked = .error (.overflow 4) := by
  decide +kernel

end PrefixArith.Term
