import Mathlib.Data.List.Basic
import PrefixArith.Proofs.Text.Lines
import PrefixArith.Proofs.Text.Utf8

/-!
# Lines of bytes

The lines of a decoded text are the lines of its bytes, each decoded on its own: both ends of a line
are ASCII, and nothing else in a text is read as one of them. So whatever bytes a line holds, it
stays one line.
-/
namespace PrefixArith.Text.Utf8

section Ascii
variable {b : UInt8} {bytes : List UInt8}

@[simp] theorem decode_nil : decode [] = "" := rfl

theorem ascii_mem_decode_iff (small : b < 0x80) : ascii b ∈ (decode bytes).toList ↔ b ∈ bytes := by
  constructor
  · intro mem
    obtain ⟨before, after, parts⟩ := List.append_of_mem mem
    obtain ⟨first, last, rfl, -, -⟩ := (parts ▸ decodes_decode bytes).exists_cut small
    simp
  · intro mem
    obtain ⟨first, last, rfl⟩ := List.append_of_mem mem
    simp [toList_decode_append first small last]

theorem getLast?_decode_iff (small : b < 0x80) :
    (decode bytes).toList.getLast? = some (ascii b) ↔ bytes.getLast? = some b := by
  constructor
  · intro final
    obtain ⟨before, parts⟩ := List.getLast?_eq_some_iff.mp final
    obtain ⟨first, last, rfl, -, nothing⟩ := (parts ▸ decodes_decode bytes).exists_cut small
    rw [nothing.eq_nil.mpr rfl, List.getLast?_concat]
  · intro final
    obtain ⟨first, rfl⟩ := List.getLast?_eq_some_iff.mp final
    rw [toList_decode_append first small [], decode_nil, String.toList_empty, List.getLast?_concat]

theorem toList_decode_intercalate (small : b < 0x80) (parts : List (List UInt8)) :
    (decode ([b].intercalate parts)).toList =
      [ascii b].intercalate (parts.map fun part => (decode part).toList) := by
  induction parts with
  | nil => rfl
  | cons part others ih =>
    cases others with
    | nil => simp
    | cons next others =>
      rw [List.intercalate_cons_cons, List.append_assoc, List.singleton_append,
        toList_decode_append part small, ih, List.map_cons, List.map_cons, List.map_cons,
        List.intercalate_cons_cons, List.append_assoc, List.singleton_append]

/-- The parts of a decoded text between an ASCII character are the parts of its bytes, decoded. -/
theorem splitOn_decode (small : b < 0x80) (bytes : List UInt8) :
    (decode bytes).toList.splitOn (ascii b) =
      (bytes.splitOn b).map fun part => (decode part).toList := by
  have plain : ∀ part ∈ (bytes.splitOn b).map fun part => (decode part).toList, ascii b ∉ part := by
    intro part mem
    obtain ⟨own, found, rfl⟩ := List.mem_map.mp mem
    rw [ascii_mem_decode_iff small]
    exact not_mem_of_mem_splitOn own found
  have whole := toList_decode_intercalate small (bytes.splitOn b)
  rw [List.intercalate_splitOn] at whole
  rw [whole, List.splitOn_intercalate (ascii b) plain]
  simp [List.splitOn_ne_nil]

theorem count_decode (small : b < 0x80) (bytes : List UInt8) :
    (decode bytes).toList.count (ascii b) = bytes.count b := by
  have parts := congrArg List.length (splitOn_decode small bytes)
  rw [List.length_map, length_splitOn, length_splitOn] at parts
  exact Nat.succ.inj parts

theorem trimmed_decode (small : b < 0x80) (part : List UInt8) :
    trimmed (ascii b) (decode part).toList = (decode (trimmed b part)).toList := by
  by_cases final : part.getLast? = some b
  · obtain ⟨first, rfl⟩ := List.getLast?_eq_some_iff.mp final
    simp [trimmed, toList_decode_append first small]
  · rw [trimmed, trimmed, if_neg final, if_neg (mt (getLast?_decode_iff small).mp final)]

theorem ended_decode (small : b < 0x80) (parts : List (List UInt8)) :
    ended (ascii b) (parts.map fun part => (decode part).toList) =
      (ended b parts).map fun part => (decode part).toList := by
  induction parts with
  | nil => rfl
  | cons part others ih =>
    cases others with
    | nil =>
      have nothing : (decode part).toList = [] ↔ part = [] := (decodes_decode part).eq_nil.symm
      simp only [List.map_cons, List.map_nil, ended, nothing]
      split <;> rfl
    | cons next others =>
      have rest : ((next :: others).map fun part => (decode part).toList) ≠ [] :=
        List.cons_ne_nil _ _
      rw [List.map_cons, ended_cons rest, trimmed_decode small, ih,
        ended_cons (List.cons_ne_nil next others), List.map_cons]

end Ascii

/-- Decoding neither adds lines nor takes or joins any: the lines of the text are those of the
bytes. -/
theorem lines_decode (bytes : List UInt8) :
    lines (decode bytes) = (linesBy 0x0A 0x0D bytes).map decode := by
  have feeds := splitOn_decode (b := 0x0A) (by decide) bytes
  have ends := ended_decode (b := 0x0D) (by decide) (bytes.splitOn 0x0A)
  rw [← feeds] at ends
  have lines' : linesBy '\n' '\r' (decode bytes).toList =
      (linesBy 0x0A 0x0D bytes).map fun part => (decode part).toList := ends
  rw [lines_eq, lines', List.map_map]
  congr 1
  funext part
  simp

theorem decode_append_feed (a b : List UInt8) :
    decode (a ++ [0x0A] ++ b) = decode a ++ "\n" ++ decode b := by
  have whole := toList_decode_append (b := 0x0A) a (by decide) b
  rw [← String.toList_inj, List.append_assoc, List.singleton_append, whole]
  simp [ascii]

theorem decode_feed (bytes : List UInt8) : decode (bytes ++ [0x0A]) = decode bytes ++ "\n" := by
  simpa using decode_append_feed bytes []

/-- The bytes are none or end with a line feed, so that a new line begins behind them. -/
def ClosedBytes (bytes : List UInt8) : Prop := bytes = [] ∨ ∃ earlier, bytes = earlier ++ [0x0A]

theorem closed_decode {bytes : List UInt8} (closed : ClosedBytes bytes) :
    Closed (decode bytes) := by
  rcases closed with rfl | ⟨earlier, rfl⟩
  · exact .inl rfl
  · exact .inr ⟨decode earlier, decode_feed earlier⟩

theorem decode_append {a : List UInt8} (closed : ClosedBytes a) (b : List UInt8) :
    decode (a ++ b) = decode a ++ decode b := by
  rcases closed with rfl | ⟨earlier, rfl⟩
  · simp
  · rw [decode_append_feed, decode_feed]

end PrefixArith.Text.Utf8
