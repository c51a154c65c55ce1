import PrefixArith.Proofs.Line.Answer
import PrefixArith.Proofs.Text.Lines
import PrefixArith.Proofs.Token.Scanning
import PrefixArith.Script

/-!
# The lines of a script

The outcomes of a script are those of its lines, each with the number of its line. A line feed parts
two texts in their outcomes as well, and what stands on one line has no part in the outcome of
another.
-/
namespace PrefixArith.Script

/-- The same outcome for a line that stands `count` lines later. -/
def Outcome.later (count : Nat) (outcome : Outcome) : Outcome :=
  ⟨outcome.line + count, outcome.answer⟩

/-- The outcomes of lines that are numbered from `number`. -/
def outcomesFrom (mode : Overflow) (number : Nat) (lines : List String) : List Outcome :=
  (lines.zipIdx number).filterMap fun entry => (Line.answer? mode entry.1).map (Outcome.mk entry.2)

section Numbered
variable {mode : Overflow} {number : Nat}

theorem outcomes_eq (mode : Overflow) (source : String) :
    outcomes mode source = outcomesFrom mode 1 (Text.lines source) := rfl

@[simp] theorem outcomesFrom_nil : outcomesFrom mode number [] = [] := rfl

theorem outcomesFrom_append (lines others : List String) :
    outcomesFrom mode number (lines ++ others) =
      outcomesFrom mode number lines ++ outcomesFrom mode (number + lines.length) others := by
  rw [outcomesFrom, List.zipIdx_append, List.filterMap_append]
  rfl

theorem outcomesFrom_cons (line : String) (rest : List String) :
    outcomesFrom mode number (line :: rest) =
      ((Line.answer? mode line).map (Outcome.mk number)).toList ++
        outcomesFrom mode (number + 1) rest := by
  rw [outcomesFrom, List.zipIdx_cons, List.filterMap_cons]
  cases Line.answer? mode line <;> rfl

theorem mem_outcomesFrom {lines : List String} {outcome : Outcome} :
    outcome ∈ outcomesFrom mode number lines ↔
      ∃ n line, lines[n]? = some line ∧ outcome.line = number + n ∧
        Line.answer? mode line = some outcome.answer := by
  obtain ⟨place, answer⟩ := outcome
  simp only [outcomesFrom, List.mem_filterMap, Prod.exists, Option.map_eq_some_iff,
    Outcome.mk.injEq]
  constructor
  · rintro ⟨line, _, mem, _, answered, rfl, rfl⟩
    obtain ⟨later, found⟩ := List.mk_mem_zipIdx_iff_le_and_getElem?_sub.mp mem
    exact ⟨_, line, found, by omega, answered⟩
  · rintro ⟨n, line, found, rfl, answered⟩
    exact ⟨line, _, List.mk_add_mem_zipIdx_iff_getElem?.mpr found, answer, answered, rfl, rfl⟩

/-- The outcomes keep to the numbers of their lines. -/
theorem line_bounds {lines : List String} {outcome : Outcome}
    (mem : outcome ∈ outcomesFrom mode number lines) :
    number ≤ outcome.line ∧ outcome.line < number + lines.length := by
  obtain ⟨n, line, found, place, -⟩ := mem_outcomesFrom.mp mem
  obtain ⟨inside, -⟩ := List.getElem?_eq_some_iff.mp found
  omega

theorem outcomesFrom_pairwise (number : Nat) (lines : List String) :
    (outcomesFrom mode number lines).Pairwise fun a b => a.line < b.line := by
  induction lines generalizing number with
  | nil => exact List.Pairwise.nil
  | cons line rest ih =>
    rw [outcomesFrom_cons, List.pairwise_append]
    refine ⟨?_, ih (number + 1), ?_⟩
    · cases Line.answer? mode line <;> simp
    · intro a first b later
      obtain ⟨answer, -, rfl⟩ := Option.map_eq_some_iff.mp (Option.mem_toList.mp first)
      exact (line_bounds later).1

theorem outcomesFrom_add (number count : Nat) (lines : List String) :
    outcomesFrom mode (number + count) lines =
      (outcomesFrom mode number lines).map (Outcome.later count) := by
  induction lines generalizing number with
  | nil => rfl
  | cons line rest ih =>
    have rest' := ih (number + 1)
    rw [Nat.add_right_comm] at rest'
    rw [outcomesFrom_cons, outcomesFrom_cons, rest', List.map_append]
    cases Line.answer? mode line <;> rfl

/-- Lines that are all answered have as many outcomes, each at the place of its line. -/
theorem length_outcomesFrom {lines : List String} (number : Nat)
    (answered : ∀ line ∈ lines, ∃ answer, Line.answer? mode line = some answer) :
    (outcomesFrom mode number lines).length = lines.length := by
  induction lines generalizing number with
  | nil => rfl
  | cons line rest ih =>
    rw [List.forall_mem_cons] at answered
    obtain ⟨⟨answer, found⟩, answered⟩ := answered
    rw [outcomesFrom_cons, found, List.length_append, ih (number + 1) answered, List.length_cons,
      Nat.add_comm]
    rfl

theorem getElem?_outcomesFrom {lines : List String} (number : Nat)
    (answered : ∀ line ∈ lines, ∃ answer, Line.answer? mode line = some answer) {k : Nat}
    {line : String}
    (found : lines[k]? = some line) :
    (outcomesFrom mode number lines)[k]? =
      (Line.answer? mode line).map (Outcome.mk (number + k)) := by
  induction lines generalizing number k with
  | nil => cases found
  | cons first rest ih =>
    rw [List.forall_mem_cons] at answered
    obtain ⟨⟨answer, own⟩, answered⟩ := answered
    rw [outcomesFrom_cons, own, Option.map_some, Option.toList_some, List.singleton_append]
    cases k with
    | zero =>
      obtain rfl : first = line := Option.some_inj.mp found
      rw [own]
      rfl
    | succ k =>
      rw [List.getElem?_cons_succ] at found ⊢
      rw [ih (number + 1) answered found, Nat.add_assoc, Nat.add_comm 1]

end Numbered

/-! ## One line among others -/

section Around
variable {mode : Overflow} {before line ending after : String}

/-- The number of the line that begins behind a text. -/
def numberAfter (before : String) : Nat := before.toList.count '\n' + 1

/-- The outcomes of a script are those before a line, that of the line itself and those behind
it. -/
theorem outcomes_around (mode : Overflow) (starts : Text.Closed before) (plain : '\n' ∉ line.toList)
    (ends : ending = "\n" ∨ ending = "" ∧ after = "") :
    outcomes mode (before ++ line ++ ending ++ after) =
      outcomes mode before ++
        outcomesFrom mode (numberAfter before) (Text.lines (line ++ ending)) ++
        outcomesFrom mode (numberAfter before + 1) (Text.lines after) := by
  have place : 1 + (Text.lines before).length = numberAfter before := by
    rw [Text.length_lines starts, numberAfter, Nat.add_comm]
  have first := Text.lines_append starts (line ++ ending ++ after)
  have parts : before ++ line ++ ending ++ after = before ++ (line ++ ending ++ after) := by
    simp only [String.append_assoc]
  rw [parts, outcomes_eq, first, outcomesFrom_append, place, ← outcomes_eq, List.append_assoc,
    List.append_cancel_left_eq]
  rcases ends with rfl | ⟨rfl, rfl⟩
  · rw [Text.lines_append (.inr ⟨line, rfl⟩), outcomesFrom_append, Text.length_lines_feed plain]
  · simp [Text.lines_eq]

theorem line_lt_numberAfter (starts : Text.Closed before) {outcome : Outcome}
    (mem : outcome ∈ outcomes mode before) : outcome.line < numberAfter before := by
  have bounds := line_bounds mem
  rw [Text.length_lines starts] at bounds
  rw [numberAfter]
  omega

theorem line_eq_of_own (plain : '\n' ∉ line.toList)
    (ends : ending = "\n" ∨ ending = "" ∧ after = "")
    {number : Nat} {outcome : Outcome}
    (mem : outcome ∈ outcomesFrom mode number (Text.lines (line ++ ending))) :
    outcome.line = number := by
  have bounds := line_bounds mem
  have single : (Text.lines (line ++ ending)).length ≤ 1 := by
    rcases ends with rfl | ⟨rfl, -⟩
    · exact Nat.le_of_eq (Text.length_lines_feed plain)
    · rw [String.append_empty]
      exact Text.length_lines_of_plain plain
  omega

/-- Of a script, the line between two parts has the outcomes that it has with its end alone, and all
others are those of the parts. -/
theorem filter_around (mode : Overflow) (starts : Text.Closed before) (plain : '\n' ∉ line.toList)
    (ends : ending = "\n" ∨ ending = "" ∧ after = "") :
    (outcomes mode (before ++ line ++ ending ++ after)).filter (·.line = numberAfter before) =
        outcomesFrom mode (numberAfter before) (Text.lines (line ++ ending)) ∧
      (outcomes mode (before ++ line ++ ending ++ after)).filter (·.line ≠ numberAfter before) =
        outcomes mode before ++ outcomesFrom mode (numberAfter before + 1) (Text.lines after) := by
  rw [outcomes_around mode starts plain ends]
  have first : ∀ outcome ∈ outcomes mode before, outcome.line ≠ numberAfter before :=
    fun _ mem => Nat.ne_of_lt (line_lt_numberAfter starts mem)
  have own : ∀ outcome ∈ outcomesFrom mode (numberAfter before) (Text.lines (line ++ ending)),
      outcome.line = numberAfter before := fun _ mem => line_eq_of_own plain ends mem
  have last : ∀ outcome ∈ outcomesFrom mode (numberAfter before + 1) (Text.lines after),
      outcome.line ≠ numberAfter before := fun _ mem => Nat.ne_of_gt (line_bounds mem).1
  constructor
  · rw [List.filter_append, List.filter_append, List.filter_eq_nil_iff.mpr, List.nil_append,
      List.filter_eq_self.mpr, List.filter_eq_nil_iff.mpr, List.append_nil]
    · simpa using last
    · simpa using own
    · simpa using first
  · rw [List.filter_append, List.filter_append, List.filter_eq_self.mpr, List.filter_eq_nil_iff.mpr,
      List.append_nil, List.filter_eq_self.mpr]
    · simpa using last
    · simpa using own
    · simpa using first

end Around

/-- A line feed parts the outcomes of two texts. Outcomes come in the order of their lines; a line
has one exactly if it holds a character that belongs to tokens, and then it is the answer to the
line alone. What stands on a line changes no outcome of another. -/
theorem outcomes_line_by_line (mode : Overflow) :
    (∀ a b, outcomes mode (a ++ "\n" ++ b) =
      outcomes mode (a ++ "\n") ++
        (outcomes mode b).map (Outcome.later (1 + a.toList.count '\n'))) ∧
    (∀ source, (outcomes mode source).Pairwise fun a b => a.line < b.line) ∧
    (∀ source, Text.lines source = (Text.linesBy '\n' '\r' source.toList).map String.ofList ∧
      (∀ outcome, outcome ∈ outcomes mode source ↔
        ∃ n line, (Text.lines source)[n]? = some line ∧ outcome.line = n + 1 ∧
          Line.answer? mode line = some outcome.answer) ∧
      ∀ n line, (Text.lines source)[n]? = some line →
        ((∃ outcome ∈ outcomes mode source, outcome.line = n + 1) ↔
          ∃ c ∈ line.toList, Token.Recognised c)) ∧
    ∀ before line other ending after, Text.Closed before → '\n' ∉ line.toList →
      '\n' ∉ other.toList →
      (ending = "\n" ∨ ending = "\r\n" ∨ ending = "" ∧ after = "") →
      (outcomes mode (before ++ line ++ ending ++ after)).filter
          (·.line ≠ before.toList.count '\n' + 1) =
        (outcomes mode (before ++ other ++ ending ++ after)).filter
          (·.line ≠ before.toList.count '\n' + 1) := by
  refine ⟨?_, ?_, ?_, ?_⟩
  · intro a b
    have closed : Text.Closed (a ++ "\n") := .inr ⟨a, rfl⟩
    have length : (Text.lines (a ++ "\n")).length = 1 + a.toList.count '\n' := by
      rw [Text.length_lines closed, Text.toList_feed, List.count_append, List.count_singleton_self,
        Nat.add_comm]
    rw [outcomes_eq, Text.lines_append closed, outcomesFrom_append, outcomesFrom_add, length]
    rfl
  · intro source
    exact outcomesFrom_pairwise 1 (Text.lines source)
  · intro source
    refine ⟨Text.lines_eq source, fun outcome => ?_, fun n line found => ?_⟩
    · rw [outcomes_eq, mem_outcomesFrom]
      simp only [Nat.add_comm 1]
    · rw [← Token.scan_ne_nil_iff, ← Line.exists_answer?_iff mode]
      constructor
      · rintro ⟨outcome, mem, place⟩
        obtain ⟨m, line', found', place', answered⟩ := mem_outcomesFrom.mp mem
        obtain rfl : m = n := by omega
        obtain rfl : line = line' := Option.some_inj.mp (found.symm.trans found')
        exact ⟨_, answered⟩
      · rintro ⟨answer, answered⟩
        exact ⟨⟨1 + n, answer⟩, mem_outcomesFrom.mpr ⟨n, line, found, rfl, answered⟩,
          Nat.add_comm 1 n⟩
  · intro before line other ending after starts plain plain' ends
    have others {line : String} (plain : '\n' ∉ line.toList) :
        (outcomes mode (before ++ line ++ ending ++ after)).filter (·.line ≠ numberAfter before) =
          outcomes mode before ++
            outcomesFrom mode (numberAfter before + 1) (Text.lines after) := by
      rcases ends with rfl | rfl | ends
      · exact (filter_around mode starts plain (.inl rfl)).2
      · -- A carriage return at the end counts to the line.
        have parts :
          before ++ line ++ "\r\n" ++ after = before ++ (line ++ "\r") ++ "\n" ++ after := by
          rw [show "\r\n" = "\r" ++ "\n" from rfl]
          simp only [String.append_assoc]
        have carried : '\n' ∉ (line ++ "\r").toList := by simp [plain]
        rw [parts]
        exact (filter_around mode starts carried (.inl rfl)).2
      · exact (filter_around mode starts plain (.inr ends)).2
    exact (others plain).trans (others plain').symm

/-- The second line is replaced by one without a formula. It ends with a carriage return and a line
feed, a blank line follows, and the last line has no end. -/
theorem outcomes_line_by_line_of_replaced :
    let source := "(+ 1 2)\n(foo 1)\r\n\r\n(* 2 3)\r"
    let other := "(+ 1 2)\n\té\r\n\r\n(* 2 3)\r"
    (Text.Closed "(+ 1 2)\n" ∧ '\n' ∉ "(foo 1)".toList ∧ '\n' ∉ "\té".toList) ∧
      outcomes .checked source =
        [⟨1, .value 3⟩, ⟨2, .fault (.evaluation (.unsupported "foo" 1))⟩, ⟨4, .value 6⟩] ∧
      (outcomes .checked other).filter (·.line ≠ 2) = [⟨1, .value 3⟩, ⟨4, .value 6⟩] := by
  intro source other
  have starts : Text.Closed "(+ 1 2)\n" := .inr ⟨"(+ 1 2)", by decide⟩
  have plain : '\n' ∉ "(foo 1)".toList := by decide
  have plain' : '\n' ∉ "\té".toList := by decide
  have all : outcomes .checked source =
      [⟨1, .value 3⟩, ⟨2, .fault (.evaluation (.unsupported "foo" 1))⟩, ⟨4, .value 6⟩] := by
    decide +kernel
  have same := (outcomes_line_by_line .checked).2.2.2 "(+ 1 2)\n" "(foo 1)" "\té" "\r\n"
    "\r\n(* 2 3)\r" starts plain plain' (.inr (.inl rfl))
  have others :
    (outcomes .checked source).filter (·.line ≠ 2) = [⟨1, .value 3⟩, ⟨4, .value 6⟩] := by
    rw [all]
    decide
  exact ⟨⟨starts, plain, plain'⟩, all, same.symm.trans others⟩

end PrefixArith.Script
