import PrefixArith.Log.Records
import PrefixArith.Proofs.Text.Unbroken

/-!
# The texts of records

A record begins with its level in five columns and a space, which no other text of the program does,
and takes one line unless one of its values is broken. Of the values only a path can be.
-/
namespace PrefixArith.Log

open Text (Unbroken)

/-- What the text of a record of a level begins with. -/
def Level.start : Level → String
  | .error => "ERROR "
  | .warn => " WARN "
  | .info => " INFO "
  | .debug => "DEBUG "
  | .trace => "TRACE "

/-- The text begins as that of a record of some level does. -/
def looksLogged (text : String) : Bool :=
  [Level.error, .warn, .info, .debug, .trace].any fun level =>
    level.start.toList.isPrefixOf text.toList

theorem looksLogged_start (level : Level) (rest : String) :
    looksLogged (level.start ++ rest) = true := by
  rw [looksLogged, List.any_eq_true]
  refine ⟨level, by cases level <;> decide, ?_⟩
  rw [String.toList_append, List.isPrefixOf_iff_prefix]
  exact List.prefix_append _ _

/-- Only the first six characters matter. -/
theorem looksLogged_append {start : String} (long : 6 ≤ start.toList.length) (rest : String) :
    looksLogged (start ++ rest) = looksLogged start := by
  unfold looksLogged
  refine congrArg (List.any _) (funext fun level => ?_)
  have short : level.start.toList.length = 6 := by cases level <;> decide
  rw [Bool.eq_iff_iff, List.isPrefixOf_iff_prefix, List.isPrefixOf_iff_prefix, String.toList_append]
  refine ⟨fun begins => ?_, fun begins => begins.trans (List.prefix_append _ _)⟩
  exact List.prefix_of_prefix_length_le begins (List.prefix_append _ _) (by omega)

namespace Record

/-- The values of a record, each behind its name. -/
def fieldsText (fields : List (String × String)) : String :=
  String.join (fields.map fun (name, value) => " " ++ name ++ "=" ++ value)

theorem text_eq (record : Record) :
    record.text =
      record.level.start ++
        (record.target ++ ": " ++ record.message ++ fieldsText record.fields) := by
  have start (level : Level) :
      String.ofList (List.replicate (5 - level.text.length) ' ') ++ level.text ++ " " =
        level.start := by
    cases level <;> decide +kernel
  rw [text, ← start, fieldsText]
  simp only [String.append_assoc]

theorem looksLogged_text (record : Record) : looksLogged record.text = true := by
  rw [text_eq]
  exact looksLogged_start record.level _

/-! ## Records on one line -/

theorem unbroken_fieldsText {fields : List (String × String)}
    (unbroken : ∀ field ∈ fields, Unbroken field.1 ∧ Unbroken field.2) :
    Unbroken (fieldsText fields) := by
  induction fields with
  | nil => decide
  | cons field fields ih =>
    rw [List.forall_mem_cons] at unbroken
    obtain ⟨⟨name, value⟩, others⟩ := unbroken
    rw [fieldsText, List.map_cons, String.join_cons]
    simp only [Text.unbroken_append]
    exact ⟨⟨⟨⟨by decide, name⟩, by decide⟩, value⟩, ih others⟩

/-- A record takes one line if its parts do. -/
theorem unbroken_text {level : Level} {target message : String} {fields : List (String × String)}
    (source : Unbroken target) (words : Unbroken message)
    (values : ∀ field ∈ fields, Unbroken field.1 ∧ Unbroken field.2) :
    Unbroken (Record.mk level target message fields).text := by
  have start : Unbroken level.start := by cases level <;> decide
  rw [text_eq]
  simp only [Text.unbroken_append]
  exact ⟨start, ⟨⟨source, by decide⟩, words⟩, unbroken_fieldsText values⟩

theorem unbroken_ofEvent (event : Line.Event) : Unbroken (ofEvent event).text := by
  cases event with
  | trailing count =>
    refine unbroken_text (by decide) (by decide) ?_
    simp only [List.forall_mem_cons]
    exact ⟨⟨by decide, Text.unbroken_ofNat count⟩, nofun⟩
  | solved tokens nodes value =>
    refine unbroken_text (by decide) (by decide) ?_
    simp only [List.forall_mem_cons]
    exact ⟨⟨by decide, Text.unbroken_ofNat tokens⟩, ⟨by decide, Text.unbroken_ofNat nodes⟩,
      ⟨by decide, Text.unbroken_ofInt value.toInt⟩, nofun⟩

theorem unbroken_failed (line column : Nat) : Unbroken (failed line column).text := by
  refine unbroken_text (by decide) (by decide) ?_
  simp only [List.forall_mem_cons]
  exact ⟨⟨by decide, Text.unbroken_ofNat line⟩, ⟨by decide, Text.unbroken_ofNat column⟩, nofun⟩

theorem unbroken_wrote (count : Nat) {path : String} (unbroken : Unbroken path) :
    Unbroken (wrote count path).text := by
  refine unbroken_text (by decide) (by decide) ?_
  simp only [List.forall_mem_cons]
  exact ⟨⟨by decide, Text.unbroken_ofNat count⟩, ⟨by decide, unbroken⟩, nofun⟩

/-! ## The texts in full -/

theorem text_failed (line column : Nat) :
    (failed line column).text = s!" WARN smtcalc: formula failed line={line} column={column}" := by
  have lineText : Decimal.ofNat line = toString line := rfl
  have columnText : Decimal.ofNat column = toString column := rfl
  rw [text_eq]
  simp only [failed, fieldsText, Level.start, lineText, columnText, List.map_cons, List.map_nil,
    String.join_cons, String.join_nil, String.append_empty, ← String.append_assoc,
    String.reduceAppend]
  rfl

theorem text_wrote (count : Nat) (path : String) :
    (wrote count path).text =
      s!"DEBUG smtcalc: wrote generated formulas count={count} path={path}" := by
  have countText : Decimal.ofNat count = toString count := rfl
  rw [text_eq]
  simp only [wrote, fieldsText, Level.start, countText, List.map_cons, List.map_nil,
    String.join_cons, String.join_nil, String.append_empty, ← String.append_assoc,
    String.reduceAppend]
  rfl

end Record

end PrefixArith.Log
