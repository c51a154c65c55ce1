import PrefixArith.Proofs.Token.Pieces
import PrefixArith.Proofs.Token.Tokenization

/-!
# Tokens overwritten with spaces

Keywords and parentheses are overwritten where they stand, a space for each character. As long as
whole tokens are overwritten, and no opening parenthesis directly in front of a minus sign, every
other token stays what it is and where it is (`scan_overwrite`).
-/
namespace PrefixArith

namespace Text

/-- The characters, the first of them at `offset`, with a space for each one whose offset is
chosen. -/
def overwriteFrom (chosen : Nat → Bool) (offset : Nat) : List Char → List Char
  | [] => []
  | c :: rest =>
    (if chosen offset then ' ' else c) :: overwriteFrom chosen (offset + c.utf8Size) rest

/-- The text with a space for each character whose offset is chosen. -/
def overwrite (chosen : Nat → Bool) (text : String) : String :=
  String.ofList (overwriteFrom chosen 0 text.toList)

variable {chosen : Nat → Bool} {offset : Nat} {c : Char} {rest : List Char}

theorem overwriteFrom_of_chosen (here : chosen offset = true) :
    overwriteFrom chosen offset (c :: rest) =
      ' ' :: overwriteFrom chosen (offset + c.utf8Size) rest := by
  rw [overwriteFrom, if_pos here]

theorem overwriteFrom_of_kept (here : chosen offset = false) :
    overwriteFrom chosen offset (c :: rest) =
      c :: overwriteFrom chosen (offset + c.utf8Size) rest := by
  rw [overwriteFrom, here, if_neg Bool.false_ne_true]

/-- Nothing chosen, nothing changed. -/
theorem overwriteFrom_eq_self {chars : List Char}
    (none : ∀ before c after, chars = before ++ c :: after →
      chosen (offset + byteSize before) = false) :
    overwriteFrom chosen offset chars = chars := by
  induction chars generalizing offset with
  | nil => rfl
  | cons c rest ih =>
    have here : chosen offset = false := none [] c rest rfl
    have later : ∀ before d after, rest = before ++ d :: after →
        chosen (offset + c.utf8Size + byteSize before) = false := by
      intro before d after same
      rw [Nat.add_assoc, ← byteSize_cons]
      exact none (c :: before) d after (by rw [same, List.cons_append])
    rw [overwriteFrom_of_kept here, ih later]

end Text

namespace Token
open Text (byteSize overwrite overwriteFrom)

/-- The character, with `after` behind it, belongs to a token that no other token depends on: a
keyword or a parenthesis, but not one that makes a minus sign subtract. -/
def Erasable (c : Char) (after : List Char) : Prop :=
  c.isAlpha = true ∨ c = ')' ∨ c = '(' ∧ after.head? ≠ some '-'

theorem Erasable.recognised {c : Char} {after : List Char} (erasable : Erasable c after) :
    Recognised c := by
  rcases erasable with letter | rfl | ⟨rfl, -⟩
  · exact .inr (.inr letter)
  · exact .inl (by decide)
  · exact .inl (by decide)

/-- Of the `size` bytes from `offset` on, all are chosen or none is, as `value` says. -/
def Uniform (chosen : Nat → Bool) (value : Bool) (offset size : Nat) : Prop :=
  ∀ byte, offset ≤ byte → byte < offset + size → chosen byte = value

/-- The chosen offsets are those of whole tokens that no other token depends on. -/
structure Removes (chosen : Nat → Bool) (place : Place) (offset : Nat) (chars : List Char) :
    Prop where
  erasable : ∀ before c after, chars = before ++ c :: after →
    chosen (offset + byteSize before) = true → Erasable c after
  whole : ∀ token ∈ scanFrom place offset chars, ∀ byte, token.offset ≤ byte → byte < token.finish →
    chosen byte = chosen token.offset

/-- The place of a character before and after overwriting. Either the token in progress is kept,
with all that is owed to it, or it is overwritten to its end. -/
inductive Beside (chosen : Nat → Bool) (offset : Nat) (chars : List Char) :
    Place → Place → Prop where
  | kept {place : Place} (owed : Uniform chosen false offset (byteSize (place.run chars))) :
      Beside chosen offset chars place place
  | gone {place : Place} (owed : Uniform chosen true offset (byteSize (place.run chars)))
      (plain : place = .opening → chars.head? ≠ some '-') :
      Beside chosen offset chars place .elsewhere

section Step
variable {chosen : Nat → Bool} {place place' : Place} {offset : Nat} {c : Char} {rest : List Char}

theorem Removes.tail (removes : Removes chosen place offset (c :: rest)) :
    Removes chosen (place.after c) (offset + c.utf8Size) rest where
  erasable before d after same here := by
    refine removes.erasable (c :: before) d after (by rw [same, List.cons_append]) ?_
    rwa [Text.byteSize_cons, ← Nat.add_assoc]
  whole token mem := removes.whole token (mem_scanFrom_of_tail mem)

theorem Removes.head (removes : Removes chosen place offset (c :: rest))
    (here : chosen offset = true) :
    Erasable c rest :=
  removes.erasable [] c rest rfl here

/-- What is owed to a token that starts here is overwritten exactly if its start is. -/
theorem Removes.owed (removes : Removes chosen place offset (c :: rest)) {kind : Kind}
    (role : place.role c = .starts kind) :
    Uniform chosen (chosen offset) (offset + c.utf8Size) (byteSize ((place.after c).run rest)) := by
  intro byte low high
  refine removes.whole _ (by rw [scanFrom_of_starts role]; exact List.mem_cons_self) byte ?_ ?_
  · exact Nat.le_trans (Nat.le_add_right _ _) low
  · simp only [finish, Text.utf8ByteSize_ofList, Text.byteSize_cons]
    omega

/-- Where no token goes on, only a minus sign tells one place from another. -/
theorem step_of_not_continues (fresh : place.role c ≠ .continues)
    (plain : place = .opening → c ≠ '-') :
    Place.elsewhere.role c = place.role c ∧ Place.elsewhere.after c = place.after c := by
  rw [ne_eq, Place.role_eq_continues_iff, not_or] at fresh
  cases place with
  | elsewhere => exact ⟨rfl, rfl⟩
  | opening => simp [Place.role, Place.after, plain rfl]
  | digits =>
    have other : c.isDigit = false := by simpa using fresh.1
    simp [Place.role, Place.after, other]
  | letters =>
    have other : c.isAlpha = false := by simpa using fresh.2
    simp [Place.role, Place.after, other]

/-- A character that is kept does the same in both texts. -/
theorem Beside.step (beside : Beside chosen offset (c :: rest) place place')
    (here : chosen offset = false) :
    place'.role c = place.role c ∧ place'.after c = place.after c := by
  cases beside with
  | kept => exact ⟨rfl, rfl⟩
  | gone owed plain =>
    refine step_of_not_continues (fun continues => ?_) (by simpa using plain)
    have positive := c.utf8Size_pos
    have gone := owed offset (Nat.le_refl _) (by
      rw [Place.run_cons, if_pos continues, Text.byteSize_cons]
      omega)
    rw [here] at gone
    cases gone

/-- Of a token in progress that goes on, the rest is kept or overwritten as the character here
is. -/
theorem Beside.owed (beside : Beside chosen offset (c :: rest) place place')
    (continues : place.role c = .continues) :
    Uniform chosen (chosen offset) (offset + c.utf8Size) (byteSize ((place.after c).run rest)) := by
  have run :
    byteSize (place.run (c :: rest)) = c.utf8Size + byteSize ((place.after c).run rest) := by
    rw [Place.run_cons, if_pos continues, Text.byteSize_cons]
  have positive := c.utf8Size_pos
  intro byte low high
  cases beside with
  | kept owed => rw [owed byte (by omega) (by omega), owed offset (by omega) (by omega)]
  | gone owed plain => rw [owed byte (by omega) (by omega), owed offset (by omega) (by omega)]

/-- Behind an overwritten character the place is as behind a space, if what it is owed goes with
it. -/
theorem Removes.gone (removes : Removes chosen place offset (c :: rest))
    (here : chosen offset = true)
    (owed : Uniform chosen true (offset + c.utf8Size) (byteSize ((place.after c).run rest))) :
    Beside chosen (offset + c.utf8Size) rest (place.after c) .elsewhere := by
  refine .gone owed fun opening => ?_
  rcases removes.head here with letter | rfl | ⟨-, plain⟩
  · simp [Place.after_of_isAlpha place letter] at opening
  · simp [Place.after] at opening
  · exact plain

end Step

/-- A token that is kept keeps its text, whatever becomes of the characters behind it. -/
theorem run_overwriteFrom {chosen : Nat → Bool} {place : Place} {offset : Nat} {chars : List Char}
    (owed : Uniform chosen false offset (byteSize (place.run chars))) :
    place.run (overwriteFrom chosen offset chars) = place.run chars := by
  induction chars generalizing place offset with
  | nil => rfl
  | cons c rest ih =>
    have positive := c.utf8Size_pos
    by_cases continues : place.role c = .continues
    · rw [Place.run_cons, if_pos continues, Text.byteSize_cons] at owed
      have here := owed offset (Nat.le_refl _) (by omega)
      have later := @ih (place.after c) (offset + c.utf8Size)
        (fun byte low high => owed byte (by omega) (by omega))
      rw [Text.overwriteFrom_of_kept here, Place.run_cons, Place.run_cons, later]
    · have space : place.role ' ' ≠ .continues := by cases place <;> decide
      rw [Place.run_cons, if_neg continues, overwriteFrom, Place.run_cons, if_neg]
      split <;> assumption

/-- Overwriting takes the chosen tokens out of the scan and leaves all others. The induction is on
the characters that are left; `Beside` is what it keeps of those before them. -/
theorem scanFrom_overwriteFrom {chosen : Nat → Bool} {place place' : Place} {offset : Nat}
    {chars : List Char} (removes : Removes chosen place offset chars)
    (beside : Beside chosen offset chars place place') :
    scanFrom place' offset (overwriteFrom chosen offset chars) =
      (scanFrom place offset chars).filter fun token => !chosen token.offset := by
  induction chars generalizing place place' offset with
  | nil => rfl
  | cons c rest ih =>
    cases here : chosen offset with
    | false =>
      obtain ⟨sameRole, sameAfter⟩ := beside.step here
      rw [Text.overwriteFrom_of_kept here]
      cases role : place.role c with
      | starts kind =>
        have owed := removes.owed role
        rw [here] at owed
        rw [scanFrom_of_starts (sameRole.trans role), scanFrom_of_starts role, sameAfter,
          run_overwriteFrom owed, List.filter_cons_of_pos (by simp [here]),
          ih removes.tail (.kept owed)]
      | continues =>
        have owed := beside.owed role
        rw [here] at owed
        rw [scanFrom_of_continues (sameRole.trans role), scanFrom_of_continues role, sameAfter,
          ih removes.tail (.kept owed)]
      | separates =>
        have owed :
          Uniform chosen false (offset + c.utf8Size) (byteSize ((place.after c).run rest)) := by
          intro byte low high
          rw [Place.run_after_of_separates role rest, Text.byteSize_nil] at high
          omega
        rw [scanFrom_of_separates (sameRole.trans role), scanFrom_of_separates role, sameAfter,
          ih removes.tail (.kept owed)]
    | true =>
      have known := (removes.head here).recognised
      rw [Text.overwriteFrom_of_chosen here, scanFrom_space, ← utf8Size_of_recognised known]
      cases role : place.role c with
      | starts kind =>
        have owed := removes.owed role
        rw [here] at owed
        rw [scanFrom_of_starts role, List.filter_cons_of_neg (by simp [here]),
          ih removes.tail (removes.gone here owed)]
      | continues =>
        have owed := beside.owed role
        rw [here] at owed
        rw [scanFrom_of_continues role, ih removes.tail (removes.gone here owed)]
      | separates =>
        exact absurd known (Place.role_eq_separates_iff.mp role)

/-- A space takes as many bytes as the character whose place it takes. -/
theorem Removes.byteSize_eq {chosen : Nat → Bool} {place : Place} {offset : Nat} {chars : List Char}
    (removes : Removes chosen place offset chars) :
    byteSize (overwriteFrom chosen offset chars) = byteSize chars := by
  induction chars generalizing place offset with
  | nil => rfl
  | cons c rest ih =>
    have later := ih removes.tail
    cases here : chosen offset with
    | false => rw [Text.overwriteFrom_of_kept here, Text.byteSize_cons, Text.byteSize_cons, later]
    | true =>
      have width := utf8Size_of_recognised (removes.head here).recognised
      have space : ' '.utf8Size = 1 := by decide
      rw [Text.overwriteFrom_of_chosen here, Text.byteSize_cons, Text.byteSize_cons, later, width,
        space]

section Line
variable {chosen : Nat → Bool} {line : String}

/-- A line with some of its keywords and parentheses overwritten has all other tokens, at their
places. -/
theorem scan_overwrite (removes : Removes chosen .opening 0 line.toList) :
    scan (overwrite chosen line) = (scan line).filter fun token => !chosen token.offset := by
  have beside : Beside chosen 0 line.toList .opening .opening := .kept fun byte low high => by
    simp [Place.run] at high
  rw [scan, overwrite, String.toList_ofList, scanFrom_overwriteFrom removes beside, scan]

theorem utf8ByteSize_overwrite (removes : Removes chosen .opening 0 line.toList) :
    (overwrite chosen line).utf8ByteSize = line.utf8ByteSize := by
  rw [overwrite, Text.utf8ByteSize_ofList, removes.byteSize_eq, Text.byteSize_toList]

end Line

/-! ## The bytes of tokens -/

/-- The byte at the offset is one of some token. -/
def covers (tokens : List Token) (offset : Nat) : Bool :=
  tokens.any fun token => token.offset ≤ offset ∧ offset < token.finish

theorem covers_iff {tokens : List Token} {offset : Nat} :
    covers tokens offset = true ↔ ∃ token ∈ tokens, token.offset ≤ offset ∧
      offset < token.finish := by
  simp [covers]

section Covers
variable {line : String} {chosen : List Token} {token : Token}

/-- Any byte of a token tells whether it is among the chosen ones. -/
theorem covers_iff_mem (scanned : ∀ token ∈ chosen, token ∈ scan line) (mem : token ∈ scan line)
    {byte : Nat} (low : token.offset ≤ byte) (high : byte < token.finish) :
    covers chosen byte = true ↔ token ∈ chosen := by
  rw [covers_iff]
  constructor
  · rintro ⟨other, found, low', high'⟩
    have disjoint := scanFrom_pairwise .opening 0 line.toList
    rwa [eq_of_shared disjoint mem (scanned other found) byte ⟨low, high⟩ ⟨low', high'⟩]
  · intro here
    exact ⟨token, here, low, high⟩

theorem offset_lt_finish (mem : token ∈ scan line) : token.offset < token.finish := by
  have text := String.utf8ByteSize_eq_zero_iff.not.mpr (text_ne_empty_of_mem_scan mem)
  unfold finish
  omega

/-- Keywords of a line are overwritten as whole tokens. -/
theorem removes_keywords
    (keywords : ∀ token ∈ chosen, token ∈ scan line ∧ token.kind = .keyword) :
    Removes (covers chosen) .opening 0 line.toList where
  erasable before c after same here := by
    rw [Nat.zero_add, covers_iff] at here
    obtain ⟨token, mem, low, high⟩ := here
    obtain ⟨scanned, kind⟩ := keywords token mem
    have spelled := spelled_of_mem_scan scanned
    simp only [Spelled, kind] at spelled
    obtain ⟨start, rest, split, size⟩ := mem_scan_verbatim scanned
    have positive := c.utf8Size_pos
    refine .inl (spelled.2 c (Text.mem_of_overlap (split.symm.trans same) (by omega) ?_))
    rw [Text.byteSize_toList, size]
    exact high
  whole token mem byte low high := by
    have scanned : ∀ token ∈ chosen, token ∈ scan line := fun token mem => (keywords token mem).1
    rw [Bool.eq_iff_iff, covers_iff_mem scanned mem low high,
      covers_iff_mem scanned mem (Nat.le_refl _) (offset_lt_finish mem)]

end Covers

end Token

end PrefixArith
