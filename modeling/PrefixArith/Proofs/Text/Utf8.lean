import Mathlib.Data.List.Basic
import Mathlib.Tactic.SplitIfs
import PrefixArith.Text.Utf8

/-!
# Decoding by maximal parts

What the decoder does, told without its states: bytes are taken apart into those of whole characters
and into invalid parts, each as long as it can still become a character, and each invalid part is
read as one replacement character (`Decodes`). There is exactly one such reading of any bytes, and
it is what the decoder finds (`decodes_iff`). An ASCII byte always stands for itself, so bytes may
be cut there and read apart (`toList_decode_append`).
-/
namespace PrefixArith.Text.Utf8

/-! ## The bytes of a character -/

/-- The numbers of the bytes of character `n`. -/
def byteNumbers (n : Nat) : List Nat :=
  if n < 0x80 then [n]
  else if n < 0x800 then [0xC0 + n / 64, 0x80 + n % 64]
  else if n < 0x10000 then [0xE0 + n / 4096, 0x80 + n / 64 % 64, 0x80 + n % 64]
  else [0xF0 + n / 262144, 0x80 + n / 4096 % 64, 0x80 + n / 64 % 64, 0x80 + n % 64]

section Shapes
variable {n b x y z w : Nat} {rest : List Nat}

theorem byteNumbers_eq_one_iff : byteNumbers n = [b] ↔ b < 0x80 ∧ n = b := by
  unfold byteNumbers
  split_ifs <;> simp <;> omega

theorem byteNumbers_eq_two_iff : byteNumbers n = [b, x] ↔
    0xC2 ≤ b ∧ b ≤ 0xDF ∧ 0x80 ≤ x ∧ x ≤ 0xBF ∧ n = (b - 0xC0) * 64 + (x - 0x80) := by
  unfold byteNumbers
  split_ifs <;> simp <;> omega

/-- Behind 0xE0 a shorter form is ruled out. -/
theorem byteNumbers_eq_three_iff : byteNumbers n = [b, x, y] ↔
    0xE0 ≤ b ∧ b ≤ 0xEF ∧ 0x80 ≤ x ∧ x ≤ 0xBF ∧ (b = 0xE0 → 0xA0 ≤ x) ∧ 0x80 ≤ y ∧ y ≤ 0xBF ∧
      n = ((b - 0xE0) * 64 + (x - 0x80)) * 64 + (y - 0x80) := by
  unfold byteNumbers
  split_ifs <;> simp <;> omega

/-- Behind 0xF0 a shorter form is ruled out. -/
theorem byteNumbers_eq_four_iff : byteNumbers n = [b, x, y, z] ↔
    0xF0 ≤ b ∧ 0x80 ≤ x ∧ x ≤ 0xBF ∧ (b = 0xF0 → 0x90 ≤ x) ∧ 0x80 ≤ y ∧ y ≤ 0xBF ∧ 0x80 ≤ z ∧
      z ≤ 0xBF ∧ n = (((b - 0xF0) * 64 + (x - 0x80)) * 64 + (y - 0x80)) * 64 + (z - 0x80) := by
  unfold byteNumbers
  split_ifs <;> simp <;> omega

theorem byteNumbers_ne_longer : byteNumbers n ≠ b :: x :: y :: z :: w :: rest := by
  unfold byteNumbers
  split_ifs <;> simp

end Shapes

theorem map_toNat_encode (c : Char) :
    (String.utf8EncodeChar c).map UInt8.toNat = byteNumbers c.toNat := by
  have valid : c.toNat.isValidChar := c.valid
  have last : c.toNat < 0x110000 := by
    unfold Nat.isValidChar at valid
    omega
  have value : c.val.toNat = c.toNat := rfl
  unfold String.utf8EncodeChar byteNumbers
  simp only [value]
  generalize c.toNat = n at last ⊢
  -- The two case distinctions agree, and so do the numbers in each case.
  split_ifs <;> first | omega | skip
  all_goals simp only [List.map_cons, List.map_nil, UInt8.toNat_ofNat', List.cons.injEq, and_true]
  all_goals omega

theorem toNat_ofNat {n : Nat} (valid : n.isValidChar) : (Char.ofNat n).toNat = n := by
  rw [Char.ofNat, dif_pos valid]
  rfl

theorem exists_encode_iff {n : Nat} {bytes : List UInt8} :
    (∃ c : Char, c.toNat = n ∧ String.utf8EncodeChar c = bytes) ↔
      n.isValidChar ∧ byteNumbers n = bytes.map UInt8.toNat := by
  constructor
  · rintro ⟨c, rfl, rfl⟩
    exact ⟨c.valid, (map_toNat_encode c).symm⟩
  · rintro ⟨valid, same⟩
    refine ⟨Char.ofNat n, toNat_ofNat valid, ?_⟩
    apply List.map_injective_iff.mpr fun _ _ => UInt8.toNat_inj.mp
    rw [map_toNat_encode, toNat_ofNat valid, same]

/-- No character's bytes begin with those of another. -/
theorem encode_append_inj {c c' : Char} {rest rest' : List UInt8}
    (same : String.utf8EncodeChar c ++ rest = String.utf8EncodeChar c' ++ rest') : c = c' := by
  have first := ByteArray.utf8DecodeChar?_utf8EncodeChar_append (b := rest.toByteArray) (c := c)
  have second := ByteArray.utf8DecodeChar?_utf8EncodeChar_append (b := rest'.toByteArray) (c := c')
  rw [← List.toByteArray_append] at first second
  rw [same] at first
  exact Option.some_inj.mp (first.symm.trans second)

/-- The character of an ASCII byte. -/
def ascii (b : UInt8) : Char := Char.ofNat b.toNat

theorem toNat_ascii {b : UInt8} (small : b < 0x80) : (ascii b).toNat = b.toNat := by
  have number : b.toNat < 0x80 := UInt8.lt_iff_toNat_lt.mp small
  exact toNat_ofNat (.inl (by omega))

theorem encode_ascii {b : UInt8} (small : b < 0x80) : String.utf8EncodeChar (ascii b) = [b] := by
  have number : b.toNat < 0x80 := UInt8.lt_iff_toNat_lt.mp small
  apply List.map_injective_iff.mpr fun _ _ => UInt8.toNat_inj.mp
  rw [map_toNat_encode, toNat_ascii small, byteNumbers, if_pos number]
  rfl

/-- An ASCII byte has no part in the bytes of other characters. -/
theorem eq_ascii_of_mem {b : UInt8} {c : Char} (small : b < 0x80)
    (mem : b ∈ String.utf8EncodeChar c) :
    c = ascii b := by
  have number : b.toNat < 0x80 := UInt8.lt_iff_toNat_lt.mp small
  have own : b.toNat ∈ byteNumbers c.toNat := map_toNat_encode c ▸ List.mem_map_of_mem mem
  have same : b.toNat = c.toNat := by
    unfold byteNumbers at own
    split_ifs at own <;> simp only [List.mem_cons, List.not_mem_nil, or_false] at own <;> omega
  rw [ascii, same, Char.ofNat_toNat]

/-! ## Readings -/

/-- The bytes of some character begin with these. -/
def Begins (part : List UInt8) : Prop := ∃ c : Char, part <+: String.utf8EncodeChar c

/-- No character stands at the beginning of `part ++ rest`, and `part` is the longest beginning of
one there, or else a single byte. -/
structure Invalid (part rest : List UInt8) : Prop where
  nonempty : part ≠ []
  begins : Begins part ∨ part.length = 1
  unreadable : ∀ c : Char, ¬ String.utf8EncodeChar c <+: part ++ rest
  longest : ∀ b : UInt8, [b] <+: rest → ¬ Begins (part ++ [b])

/-- The bytes are read as a text: characters as themselves, and each invalid part as U+FFFD. -/
inductive Decodes : List UInt8 → List Char → Prop where
  | nil : Decodes [] []
  | char (c : Char) {rest : List UInt8} {text : List Char} (later : Decodes rest text) :
      Decodes (String.utf8EncodeChar c ++ rest) (c :: text)
  | invalid {part rest : List UInt8} {text : List Char} (invalid : Invalid part rest)
      (later : Decodes rest text) : Decodes (part ++ rest) ('\uFFFD' :: text)

/-- A beginning of joined bytes is one of the first of them, or goes on into the others. -/
theorem prefix_or_extends {whole before after : List UInt8} (initial : whole <+: before ++ after) :
    whole <+: before ∨ ∃ b, [b] <+: after ∧ before ++ [b] <+: whole := by
  obtain ⟨more, same⟩ := initial
  rcases List.append_eq_append_iff.mp same with ⟨stretch, inside, -⟩ | ⟨stretch, reached, behind⟩
  · exact .inl ⟨stretch, inside.symm⟩
  · cases stretch with
    | nil => exact .inl ⟨[], by simpa using reached⟩
    | cons b stretch =>
      exact .inr ⟨b, ⟨stretch ++ more, behind.symm⟩, ⟨stretch, by simp [reached]⟩⟩

theorem Begins.of_prefix {part whole : List UInt8} (begins : Begins whole)
    (initial : part <+: whole) :
    Begins part := by
  obtain ⟨c, within⟩ := begins
  exact ⟨c, initial.trans within⟩

/-- Of two invalid parts at the same place none is longer than the other. -/
theorem Invalid.length_le {part rest part' rest' : List UInt8} (invalid : Invalid part rest)
    (invalid' : Invalid part' rest') (same : part ++ rest = part' ++ rest') :
    part'.length ≤ part.length := by
  by_contra longer
  have initial : part <+: part' :=
    List.prefix_of_prefix_length_le (same ▸ List.prefix_append part rest)
      (List.prefix_append part' rest') (by omega)
  obtain ⟨_ | ⟨b, more⟩, rfl⟩ := initial
  · simp at longer
  · have begins : Begins (part ++ b :: more) := by
      refine invalid'.begins.resolve_right fun single => ?_
      have nonempty := List.length_pos_iff.mpr invalid.nonempty
      simp only [List.length_append, List.length_cons] at single
      omega
    have next : rest = b :: more ++ rest' := by simpa using same
    exact invalid.longest b ⟨more ++ rest', by simp [next]⟩ (begins.of_prefix ⟨more, by simp⟩)

theorem Decodes.eq_nil {bytes : List UInt8} {text : List Char} (decodes : Decodes bytes text) :
    bytes = [] ↔ text = [] := by
  cases decodes with
  | nil => simp
  | char c later => simp
  | invalid invalid later => simp [invalid.nonempty]

/-- There is only one reading. -/
theorem Decodes.unique {bytes : List UInt8} {text text' : List Char} (decodes : Decodes bytes text)
    (decodes' : Decodes bytes text') : text = text' := by
  induction decodes generalizing text' with
  | nil => exact (decodes'.eq_nil.mp rfl).symm
  | @char c rest text later ih =>
    generalize same : String.utf8EncodeChar c ++ rest = bytes at decodes'
    cases decodes' with
    | nil => simp at same
    | char c' later' =>
      obtain rfl := encode_append_inj same
      obtain rfl := List.append_cancel_left same
      rw [ih later']
    | invalid invalid' later' =>
      exact absurd (same ▸ List.prefix_append _ rest) (invalid'.unreadable c)
  | @invalid part rest text invalid later ih =>
    generalize same : part ++ rest = bytes at decodes'
    cases decodes' with
    | nil => exact absurd (List.append_eq_nil_iff.mp same).1 invalid.nonempty
    | char c' later' => exact absurd (same ▸ List.prefix_append _ _) (invalid.unreadable c')
    | invalid invalid' later' =>
      have lengths := Nat.le_antisymm (invalid'.length_le invalid same.symm)
        (invalid.length_le invalid' same)
      obtain ⟨rfl, rfl⟩ := List.append_inj same lengths
      rw [ih later']

/-! ## The states of the decoder -/

/-- The bytes finish the pending character, and it has number `n`. -/
inductive Pending.Completes : Pending → List UInt8 → Nat → Prop where
  | last {lower upper b : UInt8} {bits : Nat} (low : lower ≤ b) (high : b ≤ upper) :
      Completes (.within lower upper 0 bits) [b] (bits * 64 + (b.toNat - 0x80))
  | next {lower upper b : UInt8} {more bits n : Nat} {rest : List UInt8} (low : lower ≤ b)
      (high : b ≤ upper)
      (later : Completes (.within 0x80 0xBF more (bits * 64 + (b.toNat - 0x80))) rest n) :
      Completes (.within lower upper (more + 1) bits) (b :: rest) n

section Completes
variable {lower upper b : UInt8} {more bits n : Nat} {rest : List UInt8}

theorem not_completes_nil {pending : Pending} : ¬ pending.Completes [] n := by
  rintro ⟨⟩

theorem completes_last_iff : (Pending.within lower upper 0 bits).Completes (b :: rest) n ↔
    lower ≤ b ∧ b ≤ upper ∧ rest = [] ∧ n = bits * 64 + (b.toNat - 0x80) := by
  constructor
  · intro completes
    cases completes with
    | last low high => exact ⟨low, high, rfl, rfl⟩
  · rintro ⟨low, high, closed, value⟩
    rw [closed, value]
    exact .last low high

theorem completes_next_iff : (Pending.within lower upper (more + 1) bits).Completes (b :: rest) n ↔
    lower ≤ b ∧ b ≤ upper ∧
      (Pending.within 0x80 0xBF more (bits * 64 + (b.toNat - 0x80))).Completes rest n := by
  constructor
  · intro completes
    cases completes with
    | next low high later => exact ⟨low, high, later⟩
  · rintro ⟨low, high, later⟩
    exact .next low high later

/-- A byte out of bounds finishes no character. -/
theorem bounds_of_completes
    (completes : (Pending.within lower upper more bits).Completes (b :: rest) n) :
    lower ≤ b ∧ b ≤ upper := by
  cases completes with
  | last low high => exact ⟨low, high⟩
  | next low high later => exact ⟨low, high⟩

/-- Every pending character can be finished. -/
theorem exists_completes (more bits : Nat) (bounds : lower ≤ upper) :
    ∃ rest n, (Pending.within lower upper more bits).Completes rest n := by
  induction more generalizing lower upper bits with
  | zero => exact ⟨[lower], _, .last UInt8.le_rfl bounds⟩
  | succ more ih =>
    have tail : (0x80 : UInt8) ≤ 0xBF := by decide
    obtain ⟨rest, n, later⟩ := ih (bits * 64 + (lower.toNat - 0x80)) tail
    exact ⟨lower :: rest, n, .next UInt8.le_rfl bounds later⟩

end Completes

/-- The first byte of a longer character leaves pending what its other bytes are. -/
theorem completes_opened_iff {b : UInt8} {pending : Pending} (opened : opened? b = some pending)
    (rest : List UInt8) (n : Nat) :
    pending.Completes rest n ↔ ∃ c : Char, c.toNat = n ∧ String.utf8EncodeChar c = b :: rest := by
  rw [exists_encode_iff, List.map_cons]
  unfold opened? at opened
  simp only [UInt8.le_iff_toNat_le, ← UInt8.toNat_inj, UInt8.reduceToNat] at opened
  unfold Nat.isValidChar
  -- Each kind of first byte bounds the next one just so that the number is that of a character.
  split_ifs at opened <;> cases opened
  all_goals
    rcases rest with _ | ⟨x, _ | ⟨y, _ | ⟨z, _ | ⟨w, rest⟩⟩⟩⟩ <;>
    simp only [not_completes_nil, completes_last_iff, completes_next_iff, UInt8.le_iff_toNat_le,
      UInt8.reduceToNat, List.map_cons, List.map_nil, byteNumbers_eq_one_iff,
      byteNumbers_eq_two_iff, byteNumbers_eq_three_iff, byteNumbers_eq_four_iff,
      byteNumbers_ne_longer, List.cons_ne_nil, and_false, false_and, iff_self, true_and,
      false_iff] <;>
    omega

/-- Bytes above ASCII that open nothing are the first of no character. -/
theorem encode_ne_of_not_opened {b : UInt8} (high : 0x80 ≤ b) (opened : opened? b = none) (c : Char)
    (rest : List UInt8) : String.utf8EncodeChar c ≠ b :: rest := by
  intro same
  obtain ⟨valid, numbers⟩ := exists_encode_iff.mp ⟨c, rfl, same⟩
  unfold opened? at opened
  have small := b.toNat_lt
  simp only [UInt8.le_iff_toNat_le, ← UInt8.toNat_inj, UInt8.reduceToNat] at opened high
  unfold Nat.isValidChar at valid
  unfold byteNumbers at numbers
  split_ifs at opened
  split_ifs at numbers <;> simp only [List.map_cons, List.cons.injEq] at numbers <;> omega

theorem exists_completes_opened {b : UInt8} {pending : Pending}
    (opened : opened? b = some pending) :
    ∃ rest n, pending.Completes rest n := by
  unfold opened? at opened
  split_ifs at opened <;> cases opened <;> exact exists_completes _ _ (by decide)

/-- What is pending behind the bytes of an unfinished character is the rest of it. -/
structure Unfinished (part : List UInt8) (pending : Pending) : Prop where
  nonempty : part ≠ []
  completes : ∀ rest n, pending.Completes rest n ↔
    ∃ c : Char, c.toNat = n ∧ String.utf8EncodeChar c = part ++ rest
  finishes : ∃ rest n, pending.Completes rest n

namespace Unfinished
variable {part rest : List UInt8} {pending : Pending} {lower upper b : UInt8} {more bits : Nat}

theorem opened (opened : opened? b = some pending) : Unfinished [b] pending where
  nonempty := List.cons_ne_nil b []
  completes := completes_opened_iff opened
  finishes := exists_completes_opened opened

theorem next (unfinished : Unfinished part (.within lower upper (more + 1) bits)) (low : lower ≤ b)
    (high : b ≤ upper) :
    Unfinished (part ++ [b]) (.within 0x80 0xBF more (bits * 64 + (b.toNat - 0x80))) where
  nonempty := by simp
  completes rest n := by
    have whole := unfinished.completes (b :: rest) n
    rw [completes_next_iff, and_iff_right low, and_iff_right high] at whole
    rw [whole, List.append_assoc, List.singleton_append]
  finishes := exists_completes _ _ (by decide)

theorem last (unfinished : Unfinished part (.within lower upper 0 bits)) (low : lower ≤ b)
    (high : b ≤ upper) :
    String.utf8EncodeChar (Char.ofNat (bits * 64 + (b.toNat - 0x80))) = part ++ [b] := by
  obtain ⟨c, number, whole⟩ := (unfinished.completes [b] _).mp (.last low high)
  rw [← number, Char.ofNat_toNat, whole]

theorem begins (unfinished : Unfinished part pending) : Begins part := by
  obtain ⟨rest, n, completes⟩ := unfinished.finishes
  obtain ⟨c, -, whole⟩ := (unfinished.completes rest n).mp completes
  exact ⟨c, rest, whole.symm⟩

theorem not_begins_next (unfinished : Unfinished part (.within lower upper more bits))
    (outside : ¬ (lower ≤ b ∧ b ≤ upper)) : ¬ Begins (part ++ [b]) := by
  rintro ⟨c, rest, whole⟩
  rw [List.append_assoc, List.singleton_append] at whole
  exact outside
    (bounds_of_completes ((unfinished.completes (b :: rest) c.toNat).mpr ⟨c, rfl, whole.symm⟩))

theorem unreadable (unfinished : Unfinished part pending) (c : Char) :
    ¬ String.utf8EncodeChar c <+: part := by
  rintro ⟨more, initial⟩
  obtain ⟨rest, n, completes⟩ := unfinished.finishes
  obtain ⟨c', number, whole⟩ := (unfinished.completes rest n).mp completes
  have same : String.utf8EncodeChar c ++ (more ++ rest) = String.utf8EncodeChar c' ++ [] := by
    rw [List.append_nil, whole, ← initial, List.append_assoc]
  obtain rfl := encode_append_inj same
  have nothing : more ++ rest = [] := by simpa using same
  rw [(List.append_eq_nil_iff.mp nothing).2] at completes
  exact not_completes_nil completes

theorem invalid (unfinished : Unfinished part pending)
    (longest : ∀ b : UInt8, [b] <+: rest → ¬ Begins (part ++ [b])) : Invalid part rest where
  nonempty := unfinished.nonempty
  begins := .inl unfinished.begins
  unreadable c initial := by
    rcases prefix_or_extends initial with inside | ⟨b, next, extended⟩
    · exact unfinished.unreadable c inside
    · exact longest b next ⟨c, extended⟩
  longest := longest

end Unfinished

/-- A byte that is the first of no character is an invalid part of its own. -/
theorem invalid_of_not_opened {b : UInt8} (high : 0x80 ≤ b) (opened : opened? b = none)
    (rest : List UInt8) : Invalid [b] rest where
  nonempty := List.cons_ne_nil b []
  begins := .inr rfl
  unreadable c := by
    rintro ⟨more, whole⟩
    obtain ⟨first, others, encoded⟩ :=
      List.exists_cons_of_ne_nil (String.utf8EncodeChar_ne_nil (c := c))
    rw [encoded] at whole
    obtain rfl := (List.cons.inj whole).1
    exact encode_ne_of_not_opened high opened c others encoded
  longest b' _ := by
    rintro ⟨c, others, whole⟩
    exact encode_ne_of_not_opened high opened c (b' :: others) whole.symm

/-! ## What the decoder finds -/

/-- The result is a text with a reading of the bytes behind it. -/
def Continues (text : String) (bytes : List UInt8) (result : String) : Prop :=
  ∃ read, Decodes bytes read ∧ result.toList = text.toList ++ read

theorem Continues.char {text result : String} {rest : List UInt8} {c : Char}
    (later : Continues (text.push c) rest result) :
    Continues text (String.utf8EncodeChar c ++ rest) result := by
  obtain ⟨read, decodes, continued⟩ := later
  exact ⟨c :: read, .char c decodes, by simp [continued]⟩

theorem Continues.invalid {text result : String} {part rest : List UInt8}
    (invalid : Invalid part rest)
    (later : Continues (text.push replacement) rest result) :
    Continues text (part ++ rest) result := by
  obtain ⟨read, decodes, continued⟩ := later
  exact ⟨_, .invalid invalid decodes, by simp [continued, replacement]⟩

/-- The state behind bytes that are not read yet. -/
inductive Behind : List UInt8 → Pending → Prop where
  | ready : Behind [] .ready
  | within {part : List UInt8} {lower upper : UInt8} {more bits : Nat}
      (unfinished : Unfinished part (.within lower upper more bits)) :
      Behind part (.within lower upper more bits)

theorem Unfinished.behind {part : List UInt8} {pending : Pending}
    (unfinished : Unfinished part pending) :
    Behind part pending := by
  cases pending with
  | ready =>
    obtain ⟨rest, n, completes⟩ := unfinished.finishes
    cases completes
  | within lower upper more bits => exact .within unfinished

/-- A byte that continues nothing is read alone or begins a character. -/
theorem continues_start (text : String) (b : UInt8) (rest : List UInt8)
    (later : ∀ text part pending, Behind part pending →
      Continues text (part ++ rest) (rest.foldl Decoder.feed ⟨text, pending⟩).finish) :
    Continues text (b :: rest) (rest.foldl Decoder.feed (start text b)).finish := by
  unfold start
  by_cases small : b < 0x80
  · rw [if_pos small]
    have alone := (later (text.push (ascii b)) [] .ready .ready).char
    rwa [encode_ascii small] at alone
  · rw [if_neg small]
    have high : 0x80 ≤ b := UInt8.not_lt.mp small
    cases opened : opened? b with
    | some pending => exact later text [b] pending (Unfinished.opened opened).behind
    | none =>
      have behind := later (text.push replacement) [] .ready .ready
      exact behind.invalid (invalid_of_not_opened high opened rest)

/-- The decoder reads on from any state that it reaches. -/
theorem continues_feed {part : List UInt8} {pending : Pending} (behind : Behind part pending)
    (text : String) (rest : List UInt8) :
    Continues text (part ++ rest) (rest.foldl Decoder.feed ⟨text, pending⟩).finish := by
  induction rest generalizing text part pending with
  | nil =>
    cases behind with
    | ready => exact ⟨[], .nil, by simp [Decoder.finish]⟩
    | within unfinished =>
      have nothing : Continues (text.push replacement) [] (text.push replacement) :=
        ⟨[], .nil, by simp⟩
      exact nothing.invalid (unfinished.invalid fun b initial => by simp at initial)
  | cons b rest ih =>
    rw [List.foldl_cons]
    cases behind with
    | ready => exact continues_start text b rest fun text _ _ behind => ih behind text
    | @within _ lower upper more bits unfinished =>
      by_cases inside : lower ≤ b ∧ b ≤ upper
      · obtain ⟨low, high⟩ := inside
        simp only [Decoder.feed, low, high, and_self, if_true]
        cases more with
        | zero =>
          have later := (ih .ready (text.push (Char.ofNat (bits * 64 + (b.toNat - 0x80))))).char
          rwa [unfinished.last low high, List.append_assoc] at later
        | succ more =>
          have later := ih (.within (unfinished.next low high)) text
          rwa [List.append_assoc] at later
      · simp only [Decoder.feed, inside, if_false]
        have later :=
          continues_start (text.push replacement) b rest fun text _ _ behind => ih behind text
        refine later.invalid (unfinished.invalid fun b' initial => ?_)
        obtain rfl : b' = b := by simpa using initial
        exact unfinished.not_begins_next inside

/-- The decoder finds the reading of its bytes. -/
theorem decodes_decode (bytes : List UInt8) : Decodes bytes (decode bytes).toList := by
  obtain ⟨read, decodes, continued⟩ := continues_feed .ready "" bytes
  have whole : (decode bytes).toList = read := continued
  rwa [whole]

theorem decodes_iff {bytes : List UInt8} {text : List Char} :
    Decodes bytes text ↔ text = (decode bytes).toList := by
  constructor
  · intro decodes
    exact decodes.unique (decodes_decode bytes)
  · rintro rfl
    exact decodes_decode bytes

theorem decodes_encode (text : List Char) : Decodes (text.flatMap String.utf8EncodeChar) text := by
  induction text with
  | nil => exact .nil
  | cons c text ih =>
    rw [List.flatMap_cons]
    exact .char c ih

/-- A text that is written as bytes is read back. -/
@[simp] theorem decode_encode (text : String) : decode (encode text) = text :=
  String.toList_injective (decodes_iff.mp (decodes_encode text.toList)).symm

/-- Three bytes of a character of four are one invalid part. The bytes of a surrogate are three, as
none begins behind the first. -/
example : decode [0xF0, 0x9F, 0x92, 0x0A, 0xED, 0xA0, 0x80] = "\uFFFD\n\uFFFD\uFFFD\uFFFD" := by
  decide +kernel

/-! ## Cutting at an ASCII byte -/

section Cuts
variable {part rest before after bytes : List UInt8} {b : UInt8} {text : List Char}

/-- A beginning of a character that holds an ASCII byte is that byte. -/
theorem Begins.eq_of_mem (begins : Begins part) (small : b < 0x80) (mem : b ∈ part) :
    part = [b] := by
  obtain ⟨c, initial⟩ := begins
  obtain rfl := eq_ascii_of_mem small (initial.mem mem)
  rw [encode_ascii small, List.prefix_cons_iff] at initial
  rcases initial with rfl | ⟨others, rfl, none⟩
  · exact absurd mem List.not_mem_nil
  · rw [List.prefix_nil.mp none]

theorem Begins.eq_nil_of_ascii (begins : Begins (part ++ [b])) (small : b < 0x80) : part = [] := by
  have single := begins.eq_of_mem small (List.mem_append_right part List.mem_cons_self)
  simpa using single

/-- An invalid part stays one if an ASCII byte comes behind it. -/
theorem Invalid.append (invalid : Invalid part before) (small : b < 0x80) (after : List UInt8) :
    Invalid part (before ++ b :: after) where
  nonempty := invalid.nonempty
  begins := invalid.begins
  unreadable c initial := by
    rw [← List.append_assoc] at initial
    rcases prefix_or_extends initial with inside | ⟨b', next, extended⟩
    · exact invalid.unreadable c inside
    · obtain rfl : b' = b := by simpa using next
      have nothing : part ++ before = [] := Begins.eq_nil_of_ascii ⟨c, extended⟩ small
      exact invalid.nonempty (List.append_eq_nil_iff.mp nothing).1
  longest b' initial begins := by
    cases before with
    | nil =>
      obtain rfl : b' = b := by simpa using initial
      exact invalid.nonempty (begins.eq_nil_of_ascii small)
    | cons first others =>
      obtain rfl : b' = first := by simpa using initial
      exact invalid.longest b' ⟨others, rfl⟩ begins

/-- What stands further behind does not make a part invalid. -/
theorem Invalid.of_append (invalid : Invalid part (rest ++ after)) : Invalid part rest where
  nonempty := invalid.nonempty
  begins := invalid.begins
  unreadable c initial := by
    refine invalid.unreadable c (initial.trans ?_)
    rw [← List.append_assoc]
    exact List.prefix_append (part ++ rest) after
  longest b initial := invalid.longest b (initial.trans (List.prefix_append rest after))

theorem Decodes.append (decodes : Decodes before text) (small : b < 0x80) {text' : List Char}
    (decodes' : Decodes after text') :
    Decodes (before ++ b :: after) (text ++ ascii b :: text') := by
  induction decodes with
  | nil =>
    have whole := Decodes.char (ascii b) decodes'
    rwa [encode_ascii small] at whole
  | char c later ih =>
    rw [List.append_assoc]
    exact .char c ih
  | invalid invalid later ih =>
    rw [List.append_assoc]
    exact .invalid (invalid.append small after) ih

/-- An ASCII character of the text stands for one byte, and what is before and behind that byte is
read on its own. -/
theorem Decodes.exists_cut {before after : List Char}
    (decodes : Decodes bytes (before ++ ascii b :: after))
    (small : b < 0x80) :
    ∃ first last, bytes = first ++ b :: last ∧ Decodes first before ∧ Decodes last after := by
  generalize whole : before ++ ascii b :: after = text at decodes
  induction decodes generalizing before with
  | nil => simp at whole
  | @char c rest text later ih =>
    cases before with
    | nil =>
      obtain ⟨rfl, rfl⟩ := List.cons.inj whole
      exact ⟨[], rest, by rw [encode_ascii small]; rfl, .nil, later⟩
    | cons c' before =>
      obtain ⟨rfl, others⟩ := List.cons.inj whole
      obtain ⟨first, last, rfl, decodes, decodes'⟩ := ih others
      exact ⟨String.utf8EncodeChar c' ++ first, last, by simp, .char c' decodes, decodes'⟩
  | @invalid part rest text invalid later ih =>
    cases before with
    | nil =>
      have number : (ascii b).toNat = 0xFFFD := by rw [(List.cons.inj whole).1]; rfl
      have small' : b.toNat < 0x80 := UInt8.lt_iff_toNat_lt.mp small
      rw [toNat_ascii small] at number
      omega
    | cons c' before =>
      obtain ⟨rfl, others⟩ := List.cons.inj whole
      obtain ⟨first, last, rfl, decodes, decodes'⟩ := ih others
      exact ⟨part ++ first, last, by simp, .invalid invalid.of_append decodes, decodes'⟩

/-- ASCII bytes are where bytes may be read apart. -/
theorem toList_decode_append (before : List UInt8) (small : b < 0x80) (after : List UInt8) :
    (decode (before ++ b :: after)).toList =
      (decode before).toList ++ ascii b :: (decode after).toList :=
  (decodes_iff.mp ((decodes_decode before).append small (decodes_decode after))).symm

end Cuts

end PrefixArith.Text.Utf8
