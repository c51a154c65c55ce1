import Mathlib.Data.List.Pairwise
import PrefixArith.Proofs.Token.Scanning

/-!
# What the tokens of a line are

The rules that the tokens of a line obey, stated on the line as a whole and without the scan that
finds them: where tokens stand, which characters they hold and which token each kind of character or
run makes. Exactly one list of tokens obeys them, and it is the one that a scan gives
(`tokenization_iff_eq_scan`).
-/
namespace PrefixArith.Token
open Text (byteSize)

/-- The text `before ++ run ++ after` holds at `run` a longest stretch of characters of a class. -/
structure LongestRun (member : Char → Bool) (before run after : List Char) : Prop where
  nonempty : run ≠ []
  inside : ∀ c ∈ run, member c = true
  starts : ∀ c ∈ before.getLast?, member c = false
  ends : ∀ c ∈ after.head?, member c = false

/-- The characters end with a minus sign that does not subtract, to which digits belong. -/
def Signed (before : List Char) : Prop := ∃ earlier, before = earlier ++ ['-'] ∧ ¬ Opens earlier

/-- All bytes of a character at `offset` are bytes of the token. -/
def Holds (token : Token) (offset : Nat) (c : Char) : Prop :=
  token.offset ≤ offset ∧ offset + c.utf8Size ≤ token.finish

/-- Some byte of a character at `offset` is a byte of the token. -/
def Meets (token : Token) (offset : Nat) (c : Char) : Prop :=
  token.offset < offset + c.utf8Size ∧ offset < token.finish

/-- The rules for the tokens of a line. A place in the line is given by the characters before it,
whose size is the offset. -/
structure Tokenization (line : String) (tokens : List Token) : Prop where
  /-- A token has a text; one without could stand anywhere. -/
  nonempty : ∀ token ∈ tokens, token.text ≠ ""
  ascending : tokens.Pairwise fun a b => a.offset < b.offset
  disjoint : tokens.Pairwise fun a b => a.finish ≤ b.offset
  /-- Each text is what the line holds at the offset of the token. -/
  verbatim : ∀ token ∈ tokens, ∃ before after,
    line = before ++ token.text ++ after ∧ before.utf8ByteSize = token.offset
  /-- Each recognised character lies in exactly one token. -/
  covered : ∀ before c after, line.toList = before ++ c :: after → Recognised c →
    ∃! token, token ∈ tokens ∧ token.Holds (byteSize before) c
  /-- No other character lies in any token, not even in part. -/
  uncovered : ∀ before c after, line.toList = before ++ c :: after → ¬ Recognised c →
    ∀ token ∈ tokens, ¬ token.Meets (byteSize before) c
  parens : ∀ before c after, line.toList = before ++ c :: after → c = '(' ∨ c = ')' →
    ⟨.paren, String.singleton c, byteSize before⟩ ∈ tokens
  operators : ∀ before c after, line.toList = before ++ c :: after → c = '+' ∨ c = '*' →
    ⟨.operator, String.singleton c, byteSize before⟩ ∈ tokens
  /-- A minus sign subtracts exactly at an opening. -/
  minus : ∀ before after, line.toList = before ++ '-' :: after →
    (⟨.operator, "-", byteSize before⟩ ∈ tokens ↔ Opens before)
  /-- Anywhere else it makes a number with all digits that follow it directly, perhaps none. -/
  signs : ∀ before digits after, line.toList = before ++ '-' :: (digits ++ after) →
    ¬ Opens before → (∀ c ∈ digits, c.isDigit = true) → (∀ c ∈ after.head?, c.isDigit = false) →
    ⟨.number, String.ofList ('-' :: digits), byteSize before⟩ ∈ tokens
  numbers : ∀ before run after, line.toList = before ++ (run ++ after) →
    LongestRun Char.isDigit before run after → ¬ Signed before →
    ⟨.number, String.ofList run, byteSize before⟩ ∈ tokens
  keywords : ∀ before run after, line.toList = before ++ (run ++ after) →
    LongestRun Char.isAlpha before run after →
    ⟨.keyword, String.ofList run, byteSize before⟩ ∈ tokens

/-! ## Runs -/

/-- A longest stretch is what is taken while the class lasts. -/
theorem takeWhile_of_ends {member : Char → Bool} {run after : List Char}
    (inside : ∀ c ∈ run, member c = true) (ends : ∀ c ∈ after.head?, member c = false) :
    (run ++ after).takeWhile member = run := by
  rw [List.takeWhile_append_of_pos inside]
  cases after with
  | nil => simp
  | cons c rest => simp [ends c rfl]

theorem dropWhile_head_fails (member : Char → Bool) (chars : List Char) :
    ∀ c ∈ (chars.dropWhile member).head?, member c = false := by
  intro c found
  have nonempty : chars.dropWhile member ≠ [] := by
    intro empty
    simp [empty] at found
  have stops := List.head_dropWhile_not (p := member) nonempty
  rw [List.head?_eq_some_head nonempty, Option.mem_some_iff] at found
  rwa [found] at stops

/-- A place is inside a number exactly behind a digit or behind a sign. -/
theorem behind_eq_digits_iff {before : List Char} :
    Place.opening.behind before = .digits ↔
      (∃ c ∈ before.getLast?, c.isDigit = true) ∨ Signed before := by
  rcases List.eq_nil_or_concat before with rfl | ⟨earlier, c, rfl⟩
  · simp [Signed]
  · simp only [List.concat_eq_append, Place.behind_append, Place.behind_cons, Place.behind_nil,
      Place.after_eq_digits_iff, ne_eq, Place.behind_eq_opening_iff, Signed, List.getLast?_append,
      List.getLast?_singleton, Option.some_or, Option.mem_some_iff, exists_eq_left']
    constructor
    · rintro (digit | ⟨rfl, closed⟩)
      · exact .inl digit
      · exact .inr ⟨earlier, rfl, closed⟩
    · rintro (digit | ⟨earlier', same, closed⟩)
      · exact .inl digit
      · obtain ⟨rfl, last⟩ := List.append_inj' same rfl
        exact .inr ⟨by simpa using last, closed⟩

theorem behind_eq_letters_iff {before : List Char} :
    Place.opening.behind before = .letters ↔ ∃ c ∈ before.getLast?, c.isAlpha = true := by
  rcases List.eq_nil_or_concat before with rfl | ⟨earlier, c, rfl⟩
  · simp
  · simp [Place.after_eq_letters_iff]

/-! ## The tokens of a scan obey the rules -/

theorem utf8Size_of_recognised {c : Char} (known : Recognised c) : c.utf8Size = 1 := by
  rw [Char.utf8Size_eq_one_iff, UInt32.le_iff_toNat_le]
  change c.toNat ≤ 127
  rcases known with symbol | digit | letter
  · apply symbol_cases symbol
    decide
  · rw [isDigit_iff_toNat] at digit
    omega
  · rw [isAlpha_iff_toNat] at letter
    omega

theorem recognised_of_mem_run {place : Place} {rest : List Char} {c : Char}
    (mem : c ∈ place.run rest) : Recognised c := by
  cases place with
  | opening | elsewhere => simp [Place.run] at mem
  | digits => exact .inr (.inl (Place.isDigit_of_mem_run mem))
  | letters => exact .inr (.inr (Place.isAlpha_of_mem_run mem))

section Scan
variable {line : String} {before after : List Char}

theorem recognised_of_mem_scan {token : Token} (mem : token ∈ scan line) {c : Char}
    (inside : c ∈ token.text.toList) : Recognised c := by
  obtain ⟨before, d, after, kind, -, role, rfl⟩ := mem_scan_iff.mp mem
  simp only [startingAt, String.toList_ofList, List.mem_cons] at inside
  rcases inside with rfl | owed
  · by_contra other
    rw [Place.role_of_not_recognised _ other] at role
    cases role
  · exact recognised_of_mem_run owed

theorem text_ne_empty_of_mem_scan {token : Token} (mem : token ∈ scan line) : token.text ≠ "" := by
  obtain ⟨before, c, after, kind, -, -, rfl⟩ := mem_scan_iff.mp mem
  intro empty
  have chars := congrArg String.toList empty
  simp [startingAt] at chars

/-- The line around the text of a token. -/
theorem mem_scan_verbatim {token : Token} (mem : token ∈ scan line) :
    ∃ before after, line.toList = before ++ (token.text.toList ++ after) ∧
      byteSize before = token.offset := by
  obtain ⟨before, c, after, kind, same, -, rfl⟩ := mem_scan_iff.mp mem
  obtain ⟨more, split⟩ := ((Place.opening.behind before).after c).run_isPrefix after
  refine ⟨before, more, ?_, by simp [startingAt]⟩
  simp only [startingAt, String.toList_ofList, List.cons_append, split, same]

/-- Tokens that do not overlap and share a byte are the same. -/
theorem eq_of_shared {tokens : List Token}
    (disjoint : tokens.Pairwise fun a b => a.finish ≤ b.offset)
    {a b : Token} (ha : a ∈ tokens) (hb : b ∈ tokens) (offset : Nat)
    (inA : a.offset ≤ offset ∧ offset < a.finish) (inB : b.offset ≤ offset ∧ offset < b.finish) :
    a = b := by
  by_contra different
  have symmetric : Std.Symm fun a b : Token => a.finish ≤ b.offset ∨ b.finish ≤ a.offset :=
    ⟨fun _ _ => Or.symm⟩
  have either : tokens.Pairwise fun a b => a.finish ≤ b.offset ∨ b.finish ≤ a.offset :=
    disjoint.imp Or.inl
  have apart := either.forall ha hb different
  omega

theorem scan_covered {c : Char} (same : line.toList = before ++ c :: after) (known : Recognised c) :
    ∃! token, token ∈ scan line ∧ token.Holds (byteSize before) c := by
  have width := utf8Size_of_recognised known
  obtain ⟨token, mem, starts, ends⟩ :=
    exists_mem_scanFrom .opening 0 same known (by simp [Place.run])
  refine ⟨token, ⟨mem, by unfold Holds; omega⟩, ?_⟩
  rintro other ⟨mem', starts', ends'⟩
  exact eq_of_shared (scanFrom_pairwise .opening 0 line.toList) mem' mem
    (byteSize before) ⟨starts', by omega⟩ ⟨by omega, by omega⟩

/-- A recognised character belongs to the text of a token. -/
theorem exists_mem_text {c : Char} (mem : c ∈ line.toList) (known : Recognised c) :
    ∃ token ∈ scan line, c ∈ token.text.toList := by
  obtain ⟨before, after, same⟩ := List.append_of_mem mem
  obtain ⟨token, ⟨scanned, starts, ends⟩, -⟩ := scan_covered same known
  obtain ⟨start, rest, split, size⟩ := mem_scan_verbatim scanned
  have positive := c.utf8Size_pos
  refine ⟨token, scanned, Text.mem_of_overlap (split.symm.trans same) (by omega) ?_⟩
  rw [Text.byteSize_toList]
  unfold finish at ends
  omega

theorem scan_uncovered {c : Char} (same : line.toList = before ++ c :: after)
    (other : ¬ Recognised c) : ∀ token ∈ scan line, ¬ token.Meets (byteSize before) c := by
  rintro token mem ⟨starts, ends⟩
  obtain ⟨start, rest, split, size⟩ := mem_scan_verbatim mem
  refine other (recognised_of_mem_scan mem ?_)
  apply Text.mem_of_overlap (split.symm.trans same)
  · omega
  · rw [Text.byteSize_toList, size]
    exact ends

theorem mem_scan_of_role {c : Char} {kind : Kind} (same : line.toList = before ++ c :: after)
    (role : (Place.opening.behind before).role c = .starts kind) :
    ⟨kind, String.ofList (c :: ((Place.opening.behind before).after c).run after),
      byteSize before⟩ ∈ scan line :=
  mem_scan_iff.mpr ⟨before, c, after, kind, same, role, by simp [startingAt]⟩

/-- The role of a character tells of which kind a token is that stands at its place. -/
theorem exists_mem_scan_iff {c : Char} {kind : Kind} (same : line.toList = before ++ c :: after) :
    (∃ text, ⟨kind, text, byteSize before⟩ ∈ scan line) ↔
      (Place.opening.behind before).role c = .starts kind := by
  constructor
  · rintro ⟨text, mem⟩
    obtain ⟨before', c', after', kind', same', role, token⟩ := mem_scan_iff.mp mem
    simp only [startingAt, Token.mk.injEq, Nat.zero_add] at token
    obtain ⟨rfl, -, size⟩ := token
    obtain ⟨rfl, tail⟩ := Text.append_inj_of_byteSize (same.symm.trans same') size
    obtain ⟨rfl, -⟩ := List.cons.inj tail
    exact role
  · intro role
    exact ⟨_, mem_scan_of_role same role⟩

theorem scan_parens {c : Char} (same : line.toList = before ++ c :: after)
    (paren : c = '(' ∨ c = ')') :
    ⟨.paren, String.singleton c, byteSize before⟩ ∈ scan line := by
  have role : (Place.opening.behind before).role c = .starts .paren := by simp [Place.role, paren]
  have alone : ((Place.opening.behind before).after c).run after = [] := by
    rcases paren with rfl | rfl <;> simp [Place.after, Place.run]
  rw [String.singleton_eq_ofList]
  simpa only [alone] using mem_scan_of_role same role

theorem scan_operators {c : Char} (same : line.toList = before ++ c :: after)
    (plain : c = '+' ∨ c = '*') : ⟨.operator, String.singleton c, byteSize before⟩ ∈ scan line := by
  have role : (Place.opening.behind before).role c = .starts .operator := by
    rcases plain with rfl | rfl <;> simp [Place.role]
  have alone : ((Place.opening.behind before).after c).run after = [] := by
    rcases plain with rfl | rfl <;> simp [Place.after, Place.run]
  rw [String.singleton_eq_ofList]
  simpa only [alone] using mem_scan_of_role same role

theorem scan_minus (same : line.toList = before ++ '-' :: after) :
    ⟨.operator, "-", byteSize before⟩ ∈ scan line ↔ Opens before := by
  rw [← Place.behind_eq_opening_iff]
  constructor
  · intro mem
    have role := (exists_mem_scan_iff same).mp ⟨_, mem⟩
    by_contra closed
    simp [Place.role, closed] at role
  · intro opens
    have role : (Place.opening.behind before).role '-' = .starts .operator := by
      simp [Place.role, opens]
    have alone : ((Place.opening.behind before).after '-').run after = [] := by
      simp [opens, Place.after, Place.run]
    simpa [alone] using mem_scan_of_role same role

theorem scan_signs {digits : List Char} (same : line.toList = before ++ '-' :: (digits ++ after))
    (closed : ¬ Opens before) (inside : ∀ c ∈ digits, c.isDigit = true)
    (ends : ∀ c ∈ after.head?, c.isDigit = false) :
    ⟨.number, String.ofList ('-' :: digits), byteSize before⟩ ∈ scan line := by
  rw [← Place.behind_eq_opening_iff] at closed
  have role : (Place.opening.behind before).role '-' = .starts .number := by
    simp [Place.role, closed]
  have follows : (Place.opening.behind before).after '-' = .digits :=
    Place.after_eq_digits_iff.mpr (.inr ⟨rfl, closed⟩)
  simpa [follows, Place.run, takeWhile_of_ends inside ends] using mem_scan_of_role same role

theorem scan_numbers {run : List Char} (same : line.toList = before ++ (run ++ after))
    (longest : LongestRun Char.isDigit before run after) (unsigned : ¬ Signed before) :
    ⟨.number, String.ofList run, byteSize before⟩ ∈ scan line := by
  obtain ⟨d, digits, rfl⟩ := List.exists_cons_of_ne_nil longest.nonempty
  have digit : d.isDigit = true := longest.inside d List.mem_cons_self
  have fresh : Place.opening.behind before ≠ .digits := by
    rw [ne_eq, behind_eq_digits_iff]
    rintro (⟨c, last, inside⟩ | signed)
    · simp [longest.starts c last] at inside
    · exact unsigned signed
  have role : (Place.opening.behind before).role d = .starts .number := by
    rw [Place.role_of_isDigit _ digit, if_neg fresh]
  have rest := takeWhile_of_ends (fun c mem => longest.inside c (List.mem_cons_of_mem d mem))
    longest.ends
  simpa [Place.after_of_isDigit _ digit, Place.run, rest] using mem_scan_of_role same role

theorem scan_keywords {run : List Char} (same : line.toList = before ++ (run ++ after))
    (longest : LongestRun Char.isAlpha before run after) :
    ⟨.keyword, String.ofList run, byteSize before⟩ ∈ scan line := by
  obtain ⟨d, letters, rfl⟩ := List.exists_cons_of_ne_nil longest.nonempty
  have letter : d.isAlpha = true := longest.inside d List.mem_cons_self
  have fresh : Place.opening.behind before ≠ .letters := by
    rw [ne_eq, behind_eq_letters_iff]
    rintro ⟨c, last, inside⟩
    simp [longest.starts c last] at inside
  have role : (Place.opening.behind before).role d = .starts .keyword := by
    rw [Place.role_of_isAlpha _ letter, if_neg fresh]
  have rest := takeWhile_of_ends (fun c mem => longest.inside c (List.mem_cons_of_mem d mem))
    longest.ends
  simpa [Place.after_of_isAlpha _ letter, Place.run, rest] using mem_scan_of_role same role

end Scan

theorem scan_ascending (line : String) :
    (scan line).Pairwise fun a b => a.offset < b.offset := by
  refine (scanFrom_pairwise .opening 0 line.toList).imp_of_mem ?_
  intro a b mem _ apart
  have text := String.utf8ByteSize_eq_zero_iff.not.mpr (text_ne_empty_of_mem_scan mem)
  unfold finish at apart
  omega

theorem scan_tokenization (line : String) : Tokenization line (scan line) where
  nonempty _ := text_ne_empty_of_mem_scan
  ascending := scan_ascending line
  disjoint := scanFrom_pairwise .opening 0 line.toList
  verbatim token mem := by
    obtain ⟨before, after, same, size⟩ := mem_scan_verbatim mem
    refine ⟨String.ofList before, String.ofList after, ?_, size⟩
    apply String.toList_injective
    simp [same]
  covered _ _ _ := scan_covered
  uncovered _ _ _ := scan_uncovered
  parens _ _ _ := scan_parens
  operators _ _ _ := scan_operators
  minus _ _ := scan_minus
  signs _ _ _ := scan_signs
  numbers _ _ _ := scan_numbers
  keywords _ _ _ := scan_keywords

/-! ## No other list does -/

/-- The run that starts with `c` lasts as long as the class does. -/
theorem longestRun_takeWhile {member : Char → Bool} {c : Char} {before : List Char}
    (inside : member c = true) (starts : ¬ ∃ d ∈ before.getLast?, member d = true)
    (after : List Char) :
    LongestRun member before (c :: after.takeWhile member) (after.dropWhile member) where
  nonempty := List.cons_ne_nil _ _
  inside d mem := by
    rcases List.mem_cons.mp mem with rfl | mem
    · exact inside
    · exact List.all_eq_true.mp List.all_takeWhile d mem
  starts d last := by
    rw [← Bool.not_eq_true]
    exact fun earlier => starts ⟨d, last, earlier⟩
  ends := dropWhile_head_fails member after

section Unique
variable {line : String} {tokens : List Token}

/-- Two tokens of a scan do not start at the same place. -/
theorem eq_of_offset_eq {a b : Token} (ha : a ∈ scan line) (hb : b ∈ scan line)
    (same : a.offset = b.offset) : a = b := by
  have textA := String.utf8ByteSize_eq_zero_iff.not.mpr (text_ne_empty_of_mem_scan ha)
  have textB := String.utf8ByteSize_eq_zero_iff.not.mpr (text_ne_empty_of_mem_scan hb)
  refine eq_of_shared (scanFrom_pairwise .opening 0 line.toList) ha hb a.offset ?_ ?_ <;>
    unfold finish <;> omega

/-- Every character that starts a token of the scan falls under one of the rules. -/
theorem Tokenization.mem_of_mem_scan (rules : Tokenization line tokens) {token : Token}
    (mem : token ∈ scan line) : token ∈ tokens := by
  obtain ⟨before, c, after, kind, same, role, starts⟩ := mem_scan_iff.mp mem
  -- The rule gives a token at this place to the scan as well, so it is the same token.
  have agreed : ∀ rule ∈ tokens, rule ∈ scan line → rule.offset = byteSize before →
      token ∈ tokens := by
    intro rule ruled scanned offset
    have size : token.offset = byteSize before := by simp [starts, startingAt]
    rwa [eq_of_offset_eq mem scanned (size.trans offset.symm)]
  have split (member : Char → Bool) : c :: after =
      (c :: after.takeWhile member) ++ after.dropWhile member := by simp
  rcases Place.recognised_cases c with symbol | digit | letter | other
  · simp only [symbols, List.mem_cons, List.not_mem_nil, or_false] at symbol
    rcases symbol with lparen | rparen | plus | times | rfl
    · exact agreed _ (rules.parens _ _ _ same (.inl lparen)) (scan_parens same (.inl lparen)) rfl
    · exact agreed _ (rules.parens _ _ _ same (.inr rparen)) (scan_parens same (.inr rparen)) rfl
    · exact agreed _ (rules.operators _ _ _ same (.inl plus)) (scan_operators same (.inl plus)) rfl
    · exact agreed _ (rules.operators _ _ _ same (.inr times))
        (scan_operators same (.inr times)) rfl
    · by_cases opens : Opens before
      · exact agreed _ ((rules.minus _ _ same).mpr opens) ((scan_minus same).mpr opens) rfl
      · have inside : ∀ d ∈ after.takeWhile Char.isDigit, d.isDigit = true :=
          List.all_eq_true.mp List.all_takeWhile
        have ends := dropWhile_head_fails Char.isDigit after
        rw [← List.takeWhile_append_dropWhile (p := Char.isDigit) (l := after)] at same
        exact agreed _ (rules.signs _ _ _ same opens inside ends)
          (scan_signs same opens inside ends)
          rfl
  · have fresh : Place.opening.behind before ≠ .digits := by
      intro within
      simp [Place.role_of_isDigit _ digit, within] at role
    rw [ne_eq, behind_eq_digits_iff, not_or] at fresh
    have longest := longestRun_takeWhile digit fresh.1 after
    rw [split Char.isDigit] at same
    exact agreed _ (rules.numbers _ _ _ same longest fresh.2)
      (scan_numbers same longest fresh.2) rfl
  · have fresh : Place.opening.behind before ≠ .letters := by
      intro within
      simp [Place.role_of_isAlpha _ letter, within] at role
    rw [ne_eq, behind_eq_letters_iff] at fresh
    have longest := longestRun_takeWhile letter fresh after
    rw [split Char.isAlpha] at same
    exact agreed _ (rules.keywords _ _ _ same longest) (scan_keywords same longest) rfl
  · simp [Place.role_of_not_recognised _ other] at role

/-- Every other token would share a byte with a token of the scan. -/
theorem Tokenization.mem_scan_of_mem (rules : Tokenization line tokens) {token : Token}
    (mem : token ∈ tokens) : token ∈ scan line := by
  obtain ⟨before, after, same, size⟩ := rules.verbatim token mem
  have nonempty := rules.nonempty token mem
  obtain ⟨c, rest, text⟩ : ∃ c rest, token.text.toList = c :: rest := by
    apply List.exists_cons_of_ne_nil
    simpa using nonempty
  have chars : line.toList = before.toList ++ c :: (rest ++ after.toList) := by simp [same, text]
  have width : token.text.utf8ByteSize = c.utf8Size + byteSize rest := by
    rw [← Text.byteSize_toList, text, Text.byteSize_cons]
  have positive := c.utf8Size_pos
  have start : byteSize before.toList = token.offset := by rw [Text.byteSize_toList, size]
  have known : Recognised c := by
    by_contra other
    refine rules.uncovered _ _ _ chars other token mem ⟨?_, ?_⟩ <;> unfold finish at * <;> omega
  obtain ⟨found, ⟨scanned, holds⟩, -⟩ := scan_covered chars known
  have held : token.Holds (byteSize before.toList) c := by
    refine ⟨?_, ?_⟩ <;> unfold finish at * <;> omega
  have equal := (rules.covered _ _ _ chars known).unique ⟨mem, held⟩
    ⟨rules.mem_of_mem_scan scanned, holds⟩
  rwa [equal]

end Unique

/-- The rules determine the tokens of a line, and a scan gives them. -/
theorem tokenization_iff_eq_scan (line : String) (tokens : List Token) :
    Tokenization line tokens ↔ tokens = scan line := by
  constructor
  · intro rules
    have distinct : tokens.Nodup := rules.ascending.imp fun before same => by simp [same] at before
    have distinct' : (scan line).Nodup :=
      (scan_ascending line).imp fun before same => by simp [same] at before
    have perm : tokens.Perm (scan line) := (List.perm_ext_iff_of_nodup distinct distinct').mpr
      fun token => ⟨rules.mem_scan_of_mem, rules.mem_of_mem_scan⟩
    exact perm.eq_of_pairwise (fun a b _ _ before after => absurd before (Nat.lt_asymm after))
      rules.ascending (scan_ascending line)
  · rintro rfl
    exact scan_tokenization line

/-- At an opening a minus sign subtracts, elsewhere it signs the digits that follow, if any do. -/
example : scan "(-1 --x" = [⟨.paren, "(", 0⟩, ⟨.operator, "-", 1⟩, ⟨.number, "1", 2⟩,
    ⟨.number, "-", 4⟩, ⟨.number, "-", 5⟩, ⟨.keyword, "x", 6⟩] := by decide +kernel

end PrefixArith.Token
