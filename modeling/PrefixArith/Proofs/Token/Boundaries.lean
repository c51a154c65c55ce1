import PrefixArith.Proofs.Token.Pieces
import PrefixArith.Proofs.Token.Tokenization

/-!
# Boundaries in a line

A line that is cut in two keeps its tokens exactly if the first character behind the cut does there
what it does at the start of a line (`scan_append_iff_role_eq`). That fails only for a digit or a
letter that goes on with a token in front of the cut, and for a minus sign that signs a number there
(`role_behind_eq_opening_iff`).
-/
namespace PrefixArith.Token
open Text (byteSize)

theorem offset_lt_of_mem_scan {line : String} {token : Token} (mem : token ∈ scan line) :
    token.offset < line.utf8ByteSize := by
  obtain ⟨before, c, after, kind, same, -, rfl⟩ := mem_scan_iff.mp mem
  have positive := c.utf8Size_pos
  rw [← Text.byteSize_toList, same]
  simp only [startingAt, Text.byteSize_append, Text.byteSize_cons]
  omega

section Cut
variable {a b : String} {d : Char} {rest : List Char}

theorem scan_append_of_role_eq (first : b.toList = d :: rest)
    (same : (Place.opening.behind a.toList).role d = Place.opening.role d) :
    scan (a ++ b) = scan a ++ (scan b).map (relocate (· + a.utf8ByteSize)) := by
  have stops : (Place.opening.behind a.toList).run b.toList = [] := by
    rw [first, Place.run_cons, if_neg]
    rw [same]
    exact Place.role_opening_ne_continues
  have later : scanFrom (Place.opening.behind a.toList) a.utf8ByteSize b.toList =
      scanFrom .opening a.utf8ByteSize b.toList := by
    rw [first]
    exact scanFrom_of_role_eq same
  rw [scan, String.toList_append, scanFrom_append stops, Text.byteSize_toList, Nat.zero_add, later,
    scan, scan, ← scanFrom_add, Nat.zero_add]

/-- A token at the cut is one of the second part, if the tokens of a line are those of its parts. -/
theorem exists_mem_at_cut_iff {kind : Kind}
    (splits : scan (a ++ b) = scan a ++ (scan b).map (relocate (· + a.utf8ByteSize))) :
    (∃ text, ⟨kind, text, a.utf8ByteSize⟩ ∈ scan (a ++ b)) ↔ ∃ text, ⟨kind, text, 0⟩ ∈ scan b := by
  rw [splits]
  constructor
  · rintro ⟨text, mem⟩
    rcases List.mem_append.mp mem with earlier | later
    · exact absurd (offset_lt_of_mem_scan earlier) (Nat.lt_irrefl _)
    · obtain ⟨⟨kind', text', offset⟩, found, moved⟩ := List.mem_map.mp later
      simp only [relocate, Token.mk.injEq] at moved
      obtain ⟨rfl, rfl, start⟩ := moved
      obtain rfl : offset = 0 := by omega
      exact ⟨text', found⟩
  · rintro ⟨text, found⟩
    refine ⟨text, List.mem_append_right _ (List.mem_map.mpr ⟨_, found, ?_⟩)⟩
    simp only [relocate, Nat.zero_add]

/-- The tokens of a line are those of its two parts exactly if the first character of the second
part has the role that it has at the start of a line. -/
theorem scan_append_iff_role_eq (first : b.toList = d :: rest) :
    scan (a ++ b) = scan a ++ (scan b).map (relocate (· + a.utf8ByteSize)) ↔
      (Place.opening.behind a.toList).role d = Place.opening.role d := by
  constructor
  · intro splits
    -- a token that stands at the cut tells the role on either side of the equation
    refine Place.role_eq_opening_of_starts fun kind => ?_
    have whole : (a ++ b).toList = a.toList ++ d :: rest := by rw [String.toList_append, first]
    calc (Place.opening.behind a.toList).role d = .starts kind
        ↔ ∃ text, ⟨kind, text, byteSize a.toList⟩ ∈ scan (a ++ b) :=
          (exists_mem_scan_iff whole).symm
      _ ↔ ∃ text, ⟨kind, text, 0⟩ ∈ scan b := by
        rw [Text.byteSize_toList]
        exact exists_mem_at_cut_iff splits
      _ ↔ Place.opening.role d = .starts kind := by
        rw [← Text.byteSize_nil]
        exact exists_mem_scan_iff first
  · exact scan_append_of_role_eq first

end Cut

/-- What the characters in front of a cut leave to the one behind it is told by the last of them. -/
theorem role_behind_eq_opening_iff {before : List Char} {c d : Char}
    (last : before.getLast? = some c) :
    (Place.opening.behind before).role d = Place.opening.role d ↔
      ¬ ((c.isDigit = true ∧ d.isDigit = true) ∨ (c.isAlpha = true ∧ d.isAlpha = true) ∨
        (d.isDigit = true ∧ Signed before) ∨ (d = '-' ∧ c ≠ '(')) := by
  have nonempty : before ≠ [] := by
    rintro rfl
    cases last
  have opens : Opens before ↔ c = '(' := by simp [Opens, last, nonempty]
  rw [Place.role_eq_opening_iff, behind_eq_digits_iff, behind_eq_letters_iff, ne_eq,
    Place.behind_eq_opening_iff, opens]
  simp only [last, Option.mem_some_iff, exists_eq_left']
  tauto

/-- Two texts that are put together have the tokens of the first one and then those of the second
one, as much later as the first one is long, unless a token goes on across the boundary: digits
behind a digit or behind a minus sign that signs a number, letters behind a letter; or unless the
second one begins with a minus sign, which subtracts there but signs a number behind anything except
an opening parenthesis. -/
theorem scan_splits_iff {a b : String} {c d : Char} (last : a.toList.getLast? = some c)
    (first : b.toList.head? = some d) :
    scan (a ++ b) = scan a ++ (scan b).map (relocate (· + a.utf8ByteSize)) ↔
      ¬ ((c.isDigit = true ∧ d.isDigit = true) ∨ (c.isAlpha = true ∧ d.isAlpha = true) ∨
        (d.isDigit = true ∧ Signed a.toList) ∨ (d = '-' ∧ c ≠ '(')) := by
  obtain ⟨rest, chars⟩ := List.head?_eq_some_iff.mp first
  rw [scan_append_iff_role_eq chars, role_behind_eq_opening_iff last]

/-- Digits are a number of their own behind a minus sign that subtracts, and belong to it behind one
that does not. -/
theorem scan_splits_iff_of_minus :
    ("(-".toList.getLast? = some '-' ∧ "4 -1)".toList.head? = some '4' ∧
      scan ("(-" ++ "4 -1)") = scan "(-" ++ (scan "4 -1)").map (relocate (· + 2))) ∧
    ("é-".toList.getLast? = some '-' ∧ "4".toList.head? = some '4' ∧
      scan ("é-" ++ "4") ≠ scan "é-" ++ (scan "4").map (relocate (· + 3))) := by
  have subtracts : ¬ Signed "(-".toList := by
    rintro ⟨earlier, same, closed⟩
    have parts : ['('] ++ ['-'] = earlier ++ ['-'] := same
    obtain rfl : ['('] = earlier := List.append_cancel_right parts
    exact closed (.inr rfl)
  have signs : Signed "é-".toList := ⟨['é'], rfl, by simp [Opens]⟩
  have splits := scan_splits_iff (a := "(-") (b := "4 -1)") (c := '-') (d := '4') rfl rfl
  have joins := scan_splits_iff (a := "é-") (b := "4") (c := '-') (d := '4') rfl rfl
  refine ⟨⟨rfl, rfl, ?_⟩, rfl, rfl, ?_⟩
  · exact splits.mpr (by simpa using subtracts)
  · exact fun split => joins.mp split (.inr (.inr (.inl ⟨rfl, signs⟩)))

end PrefixArith.Token
