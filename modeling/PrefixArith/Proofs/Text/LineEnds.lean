import Mathlib.Data.List.Forall2
import PrefixArith.Proofs.Text.Lines

/-!
# Ends of lines

A line feed may have a carriage return before it, and after the last line both may be left out.
Where one carriage return is put before every line feed, each line is the same, except that one that
had a carriage return there already keeps it as its last character (`forall₂_withMarks`). All of
this is shown along the lines of a text (`lines_induction`).
-/
namespace PrefixArith.Text

section Marks
variable {α : Type} [DecidableEq α] {feed mark : α}

/-- The items with a mark before every feed. -/
def withMarks (feed mark : α) (items : List α) : List α :=
  items.flatMap fun item => if item = feed then [mark, feed] else [item]

/-- Items are a part without a feed, or they begin with such a part and a feed and go on with
others. -/
theorem lines_induction (feed : α) {motive : List α → Prop}
    (last : ∀ part, feed ∉ part → motive part)
    (line : ∀ part rest, feed ∉ part → motive rest → motive (part ++ feed :: rest))
    (items : List α) :
    motive items := by
  by_cases more : feed ∈ items
  · obtain ⟨part, rest, same, plain⟩ := List.eq_append_cons_of_mem more
    have shorter : rest.length < items.length := by
      rw [same, List.length_append, List.length_cons]
      omega
    rw [same]
    exact line part rest plain (lines_induction feed last line rest)
  · exact last items more
termination_by items.length

variable {part : List α}

/-! ## Lines one by one -/

theorem linesBy_of_plain (plain : feed ∉ part) :
    linesBy feed mark part = if part = [] then [] else [part] := by
  rw [linesBy, List.splitOn_eq_singleton plain, ended]

theorem linesBy_append_of_plain (plain : feed ∉ part) (rest : List α) :
    linesBy feed mark (part ++ feed :: rest) = trimmed mark part :: linesBy feed mark rest := by
  rw [linesBy_append, List.splitOn_eq_singleton plain, List.map_singleton, List.singleton_append]

theorem trimmed_of_unmarked (unmarked : part.getLast? ≠ some mark) : trimmed mark part = part :=
  if_neg unmarked

theorem trimmed_append_mark (mark : α) (part : List α) : trimmed mark (part ++ [mark]) = part := by
  rw [trimmed, if_pos List.getLast?_concat, List.dropLast_concat]

/-- Trimming takes off one mark or nothing. -/
theorem eq_trimmed_or (mark : α) (part : List α) :
    part = trimmed mark part ∨ part = trimmed mark part ++ [mark] := by
  by_cases marked : part.getLast? = some mark
  · obtain ⟨earlier, rfl⟩ := List.getLast?_eq_some_iff.mp marked
    rw [trimmed_append_mark]
    exact .inr rfl
  · exact .inl (trimmed_of_unmarked marked).symm

/-! ## A feed in the end -/

/-- A feed behind the last line ends it, and behind the feed of another makes an empty one. -/
theorem linesBy_append_feed {items : List α} (unmarked : items.getLast? ≠ some mark) :
    linesBy feed mark (items ++ [feed]) = linesBy feed mark items ∨
      linesBy feed mark (items ++ [feed]) = linesBy feed mark items ++ [[]] := by
  induction items using lines_induction feed with
  | last part plain =>
    rw [linesBy_append_of_plain plain, linesBy_nil, linesBy_of_plain plain,
      trimmed_of_unmarked unmarked]
    split
    · next blank => exact .inr (by rw [blank, List.nil_append])
    · exact .inl rfl
  | line part rest plain ih =>
    have unmarked' : rest.getLast? ≠ some mark := by
      intro marked
      rw [List.getLast?_append, List.getLast?_cons, marked] at unmarked
      exact unmarked rfl
    rw [List.append_assoc, List.cons_append, linesBy_append_of_plain plain,
      linesBy_append_of_plain plain]
    rcases ih unmarked' with same | same
    · exact .inl (by rw [same])
    · exact .inr (by rw [same, List.cons_append])

/-! ## Marks before feeds -/

theorem withMarks_of_plain (plain : feed ∉ part) : withMarks feed mark part = part := by
  induction part with
  | nil => rfl
  | cons item rest ih =>
    rw [List.mem_cons, not_or] at plain
    have kept := ih plain.2
    rw [withMarks] at kept
    rw [withMarks, List.flatMap_cons, kept, if_neg (Ne.symm plain.1), List.singleton_append]

theorem withMarks_append_of_plain (plain : feed ∉ part) (rest : List α) :
    withMarks feed mark (part ++ feed :: rest) =
      (part ++ [mark]) ++ feed :: withMarks feed mark rest := by
  have kept : withMarks feed mark part = part := withMarks_of_plain plain
  rw [withMarks] at kept
  rw [withMarks, List.flatMap_append, kept, List.flatMap_cons, if_pos rfl, List.append_assoc]
  rfl

variable (apart : mark ≠ feed)
include apart

theorem linesBy_withMarks_append (plain : feed ∉ part) (rest : List α) :
    linesBy feed mark (withMarks feed mark (part ++ feed :: rest)) =
      part :: linesBy feed mark (withMarks feed mark rest) := by
  have plain' : feed ∉ part ++ [mark] := by simpa [plain] using apart.symm
  rw [withMarks_append_of_plain plain, linesBy_append_of_plain plain', trimmed_append_mark]

/-- Where there are no marks, they may be put before all feeds. -/
theorem linesBy_withMarks {items : List α} (unmarked : mark ∉ items) :
    linesBy feed mark (withMarks feed mark items) = linesBy feed mark items := by
  induction items using lines_induction feed with
  | last part plain => rw [withMarks_of_plain plain]
  | line part rest plain ih =>
    rw [List.mem_append, List.mem_cons, not_or, not_or] at unmarked
    have last : part.getLast? ≠ some mark := fun marked => unmarked.1 (List.mem_of_getLast? marked)
    rw [linesBy_withMarks_append apart plain, linesBy_append_of_plain plain,
      trimmed_of_unmarked last, ih unmarked.2.2]

/-- The numbered line is the other one as well, or its part between two feeds ends with a mark,
which only the other one keeps. -/
def KeepsMark (mark : α) (parts : List (List α × Nat)) (line other : List α × Nat) : Prop :=
  other = line ∨ other = (line.1 ++ [mark], line.2) ∧ other ∈ parts

/-- With marks before all feeds each line is the same, unless it keeps a mark that it has had. -/
theorem forall₂_withMarks (items : List α) (number : Nat) :
    List.Forall₂ (KeepsMark mark ((items.splitOn feed).zipIdx number))
      ((linesBy feed mark items).zipIdx number)
      ((linesBy feed mark (withMarks feed mark items)).zipIdx number) := by
  induction items using lines_induction feed generalizing number with
  | last part plain =>
    rw [withMarks_of_plain plain]
    exact List.forall₂_same.mpr fun _ _ => .inl rfl
  | line part rest plain ih =>
    rw [linesBy_withMarks_append apart plain, linesBy_append_of_plain plain,
      List.splitOn_append_cons_self, List.splitOn_eq_singleton plain, List.singleton_append,
      List.zipIdx_cons, List.zipIdx_cons, List.zipIdx_cons]
    refine .cons ?_ ((ih (number + 1)).imp ?_)
    · rcases eq_trimmed_or mark part with same | same
      · exact .inl (by rw [← same])
      · exact .inr ⟨by rw [← same], List.mem_cons_self⟩
    · rintro line other (same | ⟨same, mem⟩)
      · exact .inl same
      · exact .inr ⟨same, List.mem_cons_of_mem _ mem⟩

end Marks

/-! ## Texts -/

/-- The text with a carriage return before every line feed. -/
def withReturns (text : String) : String := String.ofList (withMarks '\n' '\r' text.toList)

theorem lines_withReturns_eq (text : String) :
    lines (withReturns text) =
      (linesBy '\n' '\r' (withMarks '\n' '\r' text.toList)).map String.ofList := by
  rw [lines_eq, withReturns, String.toList_ofList]

theorem lines_withReturns {text : String} (unmarked : '\r' ∉ text.toList) :
    lines (withReturns text) = lines text := by
  rw [lines_withReturns_eq, linesBy_withMarks (by decide) unmarked, ← lines_eq]

theorem lines_append_feed {text : String} (unmarked : text.toList.getLast? ≠ some '\r') :
    lines (text ++ "\n") = lines text ∨ lines (text ++ "\n") = lines text ++ [""] := by
  rw [lines_eq, lines_eq, toList_feed]
  rcases linesBy_append_feed unmarked with same | same
  · exact .inl (by rw [same])
  · refine .inr ?_
    rw [same, List.map_append]
    rfl

end PrefixArith.Text
