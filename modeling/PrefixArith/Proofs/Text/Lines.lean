import Mathlib.Data.List.Basic
import PrefixArith.Text.Lines

/-!
# Lines by their ends

The lines of a text, told without reading it from the left: the parts between its line feeds, each
but the last without one final carriage return, and the last one only if it is not empty
(`lines_eq`). This makes sense for any items with two of them marked out, so it serves for bytes as
well. A line feed is where two texts have their lines apart (`linesBy_append`).
-/
namespace PrefixArith.Text

section Marks
variable {α β : Type} [DecidableEq α] [DecidableEq β]

/-- The items without one final `mark`. -/
def trimmed (mark : α) (items : List α) : List α :=
  if items.getLast? = some mark then items.dropLast else items

/-- The lines that parts between line feeds make. The last part has no end of its own. -/
def ended (mark : α) : List (List α) → List (List α)
  | [] => []
  | [last] => if last = [] then [] else [last]
  | part :: others => trimmed mark part :: ended mark others

/-- The lines of items of which `feed` ends a line, and one `mark` directly before it belongs to the
end. -/
def linesBy (feed mark : α) (items : List α) : List (List α) := ended mark (items.splitOn feed)

variable {feed mark : α}

theorem ended_cons {part : List α} {others : List (List α)} (more : others ≠ []) :
    ended mark (part :: others) = trimmed mark part :: ended mark others := by
  cases others with
  | nil => exact absurd rfl more
  | cons next rest => rfl

theorem ended_append {parts others : List (List α)} (more : others ≠ []) :
    ended mark (parts ++ others) = parts.map (trimmed mark) ++ ended mark others := by
  induction parts with
  | nil => rfl
  | cons part parts ih =>
    rw [List.cons_append, ended_cons (List.append_ne_nil_of_right_ne_nil parts more), ih,
      List.map_cons, List.cons_append]

@[simp] theorem linesBy_nil : linesBy feed mark [] = [] := by
  simp [linesBy, ended]

/-- The lines before a line feed are not touched by what follows it. -/
theorem linesBy_append (a b : List α) :
    linesBy feed mark (a ++ feed :: b) =
      (a.splitOn feed).map (trimmed mark) ++ linesBy feed mark b := by
  rw [linesBy, List.splitOn_append_cons_self, ended_append (List.splitOn_ne_nil feed b), linesBy]

theorem length_splitOn (items : List α) : (items.splitOn feed).length = items.count feed + 1 := by
  induction items with
  | nil => rfl
  | cons item rest ih =>
    rw [List.splitOn_cons_eq_if_modifyHead, List.count_cons]
    split <;> simp [ih]

theorem not_mem_of_mem_splitOn {items : List α} : ∀ part ∈ items.splitOn feed, feed ∉ part := by
  induction items with
  | nil => simp
  | cons item rest ih =>
    rw [List.splitOn_cons_eq_if_modifyHead]
    by_cases same : item = feed
    · rw [if_pos (by simpa using same)]
      exact List.forall_mem_cons.mpr ⟨List.not_mem_nil, ih⟩
    · rw [if_neg (by simpa using same)]
      obtain ⟨part, others, parts⟩ := List.exists_cons_of_ne_nil (List.splitOn_ne_nil feed rest)
      rw [parts, List.modifyHead_cons]
      rw [parts] at ih
      obtain ⟨plain, ih⟩ := List.forall_mem_cons.mp ih
      exact List.forall_mem_cons.mpr ⟨List.not_mem_cons_of_ne_of_not_mem (Ne.symm same) plain, ih⟩

end Marks

/-! ## The lines of a text -/

theorem closedLine_eq (reversed : List Char) :
    closedLine reversed = trimmed '\r' reversed.reverse := by
  unfold closedLine trimmed
  split
  · next rest => simp
  · next other =>
    rw [if_neg]
    rw [List.getLast?_reverse]
    intro mark
    obtain ⟨rest, rfl⟩ := List.head?_eq_some_iff.mp mark
    exact other rest rfl

theorem modifyHead_nil_append (parts : List (List Char)) :
    parts.modifyHead ([].reverse ++ ·) = parts := by
  cases parts <;> rfl

/-- What has been read of the open line begins the first part. -/
theorem linesAfter_eq (reversed chars : List Char) :
    linesAfter reversed chars =
      ended '\r' ((chars.splitOn '\n').modifyHead (reversed.reverse ++ ·)) := by
  induction chars generalizing reversed with
  | nil => simp [linesAfter, ended, List.isEmpty_iff]
  | cons c rest ih =>
    rw [linesAfter, List.splitOn_cons_eq_if_modifyHead]
    by_cases feed : c = '\n'
    · rw [if_pos feed, if_pos (by simpa using feed), ih, modifyHead_nil_append,
        List.modifyHead_cons, List.append_nil, ended_cons (List.splitOn_ne_nil '\n' rest),
        closedLine_eq]
    · rw [if_neg feed, if_neg (by simpa using feed), ih, List.modifyHead_modifyHead]
      simp [Function.comp_def]

/-- The lines of a text are the parts between its line feeds, without the carriage returns of their
ends. -/
theorem lines_eq (text : String) :
    lines text = (linesBy '\n' '\r' text.toList).map String.ofList := by
  rw [lines, linesAfter_eq, modifyHead_nil_append, linesBy]

/-- The text is empty or ends with a line feed, so that a new line begins behind it. -/
def Closed (text : String) : Prop := text = "" ∨ ∃ earlier, text = earlier ++ "\n"

theorem toList_feed (text : String) : (text ++ "\n").toList = text.toList ++ ['\n'] := by simp

/-- A text that ends with a line feed has its lines apart from those of what follows it. -/
theorem lines_append {a : String} (closed : Closed a) (b : String) :
    lines (a ++ b) = lines a ++ lines b := by
  rcases closed with rfl | ⟨earlier, rfl⟩
  · simp [lines_eq]
  · rw [lines_eq, lines_eq, lines_eq, String.toList_append, toList_feed, List.append_assoc,
      List.singleton_append, linesBy_append, linesBy_append, linesBy_nil, List.append_nil,
      List.map_append]

/-- Every line feed ends one line. -/
theorem length_lines {text : String} (closed : Closed text) :
    (lines text).length = text.toList.count '\n' := by
  rcases closed with rfl | ⟨earlier, rfl⟩
  · simp [lines_eq]
  · rw [lines_eq, toList_feed, linesBy_append, linesBy_nil, List.append_nil, List.length_map,
      List.length_map, length_splitOn, List.count_append, List.count_singleton_self]

theorem length_lines_feed {line : String} (plain : '\n' ∉ line.toList) :
    (lines (line ++ "\n")).length = 1 := by
  rw [length_lines (.inr ⟨line, rfl⟩), toList_feed, List.count_append,
    List.count_eq_zero_of_not_mem plain, List.count_singleton_self]

/-- A text without a line feed is one line, if it is any. -/
theorem length_lines_of_plain {text : String} (plain : '\n' ∉ text.toList) :
    (lines text).length ≤ 1 := by
  rw [lines_eq, linesBy, List.splitOn_eq_singleton plain, ended, List.length_map]
  split <;> simp

end PrefixArith.Text
