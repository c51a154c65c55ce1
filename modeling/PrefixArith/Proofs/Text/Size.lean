import Mathlib.Data.List.Basic

/-!
# Sizes in bytes

The number of UTF-8 bytes before a character is what an offset counts. Every character takes at
least one byte, so the place in a text is determined by its offset (`append_inj_of_byteSize`).
-/
namespace PrefixArith.Text

/-- The number of UTF-8 bytes that the characters take. -/
def byteSize (chars : List Char) : Nat := (String.ofList chars).utf8ByteSize

@[simp] theorem byteSize_nil : byteSize [] = 0 := by
  rw [byteSize, String.ofList_nil, String.utf8ByteSize_empty]

@[simp] theorem byteSize_append (a b : List Char) :
    byteSize (a ++ b) = byteSize a + byteSize b := by
  rw [byteSize, String.ofList_append, String.utf8ByteSize_append, byteSize, byteSize]

@[simp] theorem byteSize_cons (c : Char) (rest : List Char) :
    byteSize (c :: rest) = c.utf8Size + byteSize rest := by
  rw [← List.singleton_append, byteSize_append]
  congr 1
  rw [byteSize, ← String.singleton_eq_ofList, String.utf8ByteSize_singleton]

@[simp] theorem byteSize_toList (text : String) : byteSize text.toList = text.utf8ByteSize := by
  rw [byteSize, String.ofList_toList]

@[simp] theorem utf8ByteSize_ofList (chars : List Char) :
    (String.ofList chars).utf8ByteSize = byteSize chars := rfl

theorem byteSize_eq_zero {chars : List Char} : byteSize chars = 0 ↔ chars = [] := by
  cases chars with
  | nil => simp
  | cons c rest =>
    have positive := c.utf8Size_pos
    simp only [byteSize_cons, reduceCtorEq, iff_false]
    omega

/-- Equal offsets are the same place. -/
theorem append_inj_of_byteSize {a b x y : List Char} (same : a ++ x = b ++ y)
    (size : byteSize a = byteSize b) : a = b ∧ x = y := by
  rcases List.append_eq_append_iff.mp same with ⟨more, rfl, rfl⟩ | ⟨more, rfl, rfl⟩
  all_goals
    have empty : more = [] := byteSize_eq_zero.mp (by rw [byteSize_append] at size; omega)
    simp [empty]

/-- A character whose bytes meet those of a stretch of the text belongs to the stretch. -/
theorem mem_of_overlap {before stretch after start rest : List Char} {c : Char}
    (same : start ++ (stretch ++ after) = before ++ c :: rest)
    (starts : byteSize start < byteSize before + c.utf8Size)
    (ends : byteSize before < byteSize start + byteSize stretch) : c ∈ stretch := by
  rcases List.append_eq_append_iff.mp same with ⟨more, rfl, tail⟩ | ⟨more, rfl, tail⟩
  · rcases List.append_eq_append_iff.mp tail with ⟨past, rfl, -⟩ | ⟨inside, rfl, found⟩
    · simp only [byteSize_append] at ends
      omega
    · cases inside with
      | nil =>
        simp only [byteSize_append, List.append_nil] at ends
        omega
      | cons d inside =>
        obtain ⟨rfl, -⟩ := List.cons.inj found
        simp
  · cases more with
    | nil =>
      cases stretch with
      | nil => simp at ends
      | cons d stretch =>
        obtain ⟨rfl, -⟩ := List.cons.inj tail
        simp
    | cons d more =>
      obtain ⟨rfl, -⟩ := List.cons.inj tail
      simp only [byteSize_append, byteSize_cons] at starts
      omega

end PrefixArith.Text
