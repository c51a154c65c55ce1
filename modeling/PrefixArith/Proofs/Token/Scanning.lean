import PrefixArith.Proofs.Text.Size
import PrefixArith.Proofs.Token.Place

/-!
# The tokens of a scan

A scan gives one token for every character that starts a token (`mem_scan_iff`). The tokens follow
one another without overlap and leave out no character that belongs to one.
-/
namespace PrefixArith.Token
open Text (byteSize)

section Scan
variable {place : Place} {offset : Nat} {c : Char} {rest : List Char}

theorem scanFrom_of_starts {kind : Kind} (role : place.role c = .starts kind) :
    scanFrom place offset (c :: rest) =
      ⟨kind, String.ofList (c :: (place.after c).run rest), offset⟩ ::
        scanFrom (place.after c) (offset + c.utf8Size) rest := by
  simp only [scanFrom, role]

theorem scanFrom_of_continues (role : place.role c = .continues) :
    scanFrom place offset (c :: rest) = scanFrom (place.after c) (offset + c.utf8Size) rest := by
  simp only [scanFrom, role]

theorem scanFrom_of_separates (role : place.role c = .separates) :
    scanFrom place offset (c :: rest) = scanFrom (place.after c) (offset + c.utf8Size) rest := by
  simp only [scanFrom, role]

/-- From a character that has the role it has at the start of a line, the scan goes on as from
there. -/
theorem scanFrom_of_role_eq (same : place.role c = Place.opening.role c) :
    scanFrom place offset (c :: rest) = scanFrom .opening offset (c :: rest) := by
  simp only [scanFrom, same, Place.after_eq_opening_of_role same]

theorem mem_scanFrom_of_tail {token : Token}
    (h : token ∈ scanFrom (place.after c) (offset + c.utf8Size) rest) :
    token ∈ scanFrom place offset (c :: rest) := by
  cases role : place.role c with
  | starts kind =>
    rw [scanFrom_of_starts role]
    exact List.mem_cons_of_mem _ h
  | continues => rwa [scanFrom_of_continues role]
  | separates => rwa [scanFrom_of_separates role]

end Scan

/-- A text is scanned up to any place where no token is in progress, and then on from there. -/
theorem scanFrom_append {place : Place} {offset : Nat} {a b : List Char}
    (stops : (place.behind a).run b = []) :
    scanFrom place offset (a ++ b) =
      scanFrom place offset a ++ scanFrom (place.behind a) (offset + byteSize a) b := by
  induction a generalizing place offset with
  | nil =>
    rw [scanFrom, List.nil_append, Place.behind_nil, List.nil_append, Text.byteSize_nil,
      Nat.add_zero]
  | cons c rest ih =>
    have later := @ih (place.after c) (offset + c.utf8Size) stops
    rw [Nat.add_assoc, ← Text.byteSize_cons] at later
    have owed : (place.after c).run (rest ++ b) = (place.after c).run rest := Place.run_append stops
    rw [List.cons_append, Place.behind_cons]
    cases role : place.role c with
    | starts kind =>
      rw [scanFrom_of_starts role, scanFrom_of_starts role, owed, later, List.cons_append]
    | continues => rw [scanFrom_of_continues role, scanFrom_of_continues role, later]
    | separates => rw [scanFrom_of_separates role, scanFrom_of_separates role, later]

/-- The token that starts with `c` behind the characters `before`. -/
def startingAt (place : Place) (offset : Nat) (kind : Kind) (before : List Char) (c : Char)
    (after : List Char) : Token :=
  ⟨kind, String.ofList (c :: ((place.behind before).after c).run after), offset + byteSize before⟩

theorem mem_scanFrom_iff {place : Place} {offset : Nat} {chars : List Char} {token : Token} :
    token ∈ scanFrom place offset chars ↔
      ∃ before c after kind, chars = before ++ c :: after ∧
        (place.behind before).role c = .starts kind ∧
        token = startingAt place offset kind before c after := by
  induction chars generalizing place offset with
  | nil => simp [scanFrom]
  | cons d rest ih =>
    -- Either the token starts with `d`, or it starts in the rest, behind one character more.
    have split : (∃ before c after kind, d :: rest = before ++ c :: after ∧
        (place.behind before).role c = .starts kind ∧
        token = startingAt place offset kind before c after) ↔
        (∃ kind, place.role d = .starts kind ∧ token = startingAt place offset kind [] d rest) ∨
        token ∈ scanFrom (place.after d) (offset + d.utf8Size) rest := by
      rw [ih]
      constructor
      · rintro ⟨before, c, after, kind, same, role, rfl⟩
        cases before with
        | nil =>
          obtain ⟨rfl, rfl⟩ := List.cons.inj same
          exact .inl ⟨kind, role, rfl⟩
        | cons e before =>
          obtain ⟨rfl, rfl⟩ := List.cons.inj same
          exact .inr ⟨before, c, after, kind, rfl, role, by simp [startingAt, Nat.add_assoc]⟩
      · rintro (⟨kind, role, rfl⟩ | ⟨before, c, after, kind, rfl, role, rfl⟩)
        · exact ⟨[], d, rest, kind, rfl, role, rfl⟩
        · exact ⟨d :: before, c, after, kind, rfl, role, by simp [startingAt, Nat.add_assoc]⟩
    rw [split]
    cases role : place.role d with
    | starts kind => simp [scanFrom_of_starts role, startingAt]
    | continues => simp [scanFrom_of_continues role]
    | separates => simp [scanFrom_of_separates role]

/-- A scan gives one token for every character that starts one. -/
theorem mem_scan_iff {line : String} {token : Token} :
    token ∈ scan line ↔
      ∃ before c after kind, line.toList = before ++ c :: after ∧
        (Place.opening.behind before).role c = .starts kind ∧
        token = startingAt .opening 0 kind before c after := mem_scanFrom_iff

/-- The byte behind a token. -/
def finish (token : Token) : Nat := token.offset + token.text.utf8ByteSize

/-- No token starts among the characters owed to the token in progress. -/
theorem le_offset_of_mem_scanFrom {place : Place} {offset : Nat} {chars : List Char} {token : Token}
    (h : token ∈ scanFrom place offset chars) :
    offset + byteSize (place.run chars) ≤ token.offset := by
  induction chars generalizing place offset with
  | nil => simp [scanFrom] at h
  | cons c rest ih =>
    rw [Place.run_cons]
    cases role : place.role c with
    | starts kind =>
      rw [scanFrom_of_starts role, List.mem_cons] at h
      simp only [reduceCtorEq, ↓reduceIte, Text.byteSize_nil]
      rcases h with rfl | later
      · exact Nat.le_refl _
      · have bound := ih later
        omega
    | continues =>
      rw [scanFrom_of_continues role] at h
      have bound := ih h
      simp only [↓reduceIte, Text.byteSize_cons]
      omega
    | separates =>
      rw [scanFrom_of_separates role] at h
      have bound := ih h
      simp only [reduceCtorEq, ↓reduceIte, Text.byteSize_nil]
      omega

/-- The tokens of a scan follow one another without overlap. -/
theorem scanFrom_pairwise (place : Place) (offset : Nat) (chars : List Char) :
    (scanFrom place offset chars).Pairwise fun a b => a.finish ≤ b.offset := by
  induction chars generalizing place offset with
  | nil => exact List.Pairwise.nil
  | cons c rest ih =>
    cases role : place.role c with
    | starts kind =>
      rw [scanFrom_of_starts role]
      refine List.Pairwise.cons ?_ (ih _ _)
      intro later mem
      have bound := le_offset_of_mem_scanFrom mem
      simp only [finish, Text.utf8ByteSize_ofList, Text.byteSize_cons]
      omega
    | continues =>
      rw [scanFrom_of_continues role]
      exact ih _ _
    | separates =>
      rw [scanFrom_of_separates role]
      exact ih _ _

/-- A recognised character is in a token, unless it is owed to the token in progress. -/
theorem exists_mem_scanFrom (place : Place) (offset : Nat) {chars before after : List Char}
    {c : Char}
    (same : chars = before ++ c :: after) (known : Recognised c)
    (fresh : byteSize (place.run chars) ≤ byteSize before) :
    ∃ token ∈ scanFrom place offset chars,
      token.offset ≤ offset + byteSize before ∧ offset + byteSize before < token.finish := by
  induction chars generalizing place offset before with
  | nil => simp at same
  | cons d rest ih =>
    rw [Place.run_cons] at fresh
    have positive := d.utf8Size_pos
    cases before with
    | nil =>
      obtain ⟨rfl, rfl⟩ := List.cons.inj same
      cases role : place.role d with
      | starts kind =>
        refine ⟨_, by rw [scanFrom_of_starts role]; exact List.mem_cons_self, ?_⟩
        simp only [finish, Text.utf8ByteSize_ofList, Text.byteSize_cons, Text.byteSize_nil]
        omega
      | continues =>
        simp only [role, ↓reduceIte, Text.byteSize_cons, Text.byteSize_nil] at fresh
        omega
      | separates => exact absurd known (Place.role_eq_separates_iff.mp role)
    | cons e before =>
      obtain ⟨rfl, tail⟩ := List.cons.inj same
      simp only [Text.byteSize_cons] at fresh ⊢
      -- The character is owed to a token that starts with `d`, or it is in a later one.
      by_cases owed : byteSize before < byteSize ((place.after d).run rest)
      · cases role : place.role d with
        | starts kind =>
          refine ⟨_, by rw [scanFrom_of_starts role]; exact List.mem_cons_self, ?_⟩
          simp only [finish, Text.utf8ByteSize_ofList, Text.byteSize_cons]
          omega
        | continues =>
          simp only [role, ↓reduceIte, Text.byteSize_cons] at fresh
          omega
        | separates => simp [Place.run_after_of_separates role] at owed
      · obtain ⟨token, mem, starts, ends⟩ :=
          ih (place.after d) (offset + d.utf8Size) tail (by omega)
        exact ⟨token, mem_scanFrom_of_tail mem, by omega, by omega⟩

/-- A line has a token if it holds any character that belongs to one. -/
theorem scan_ne_nil_iff {line : String} : scan line ≠ [] ↔ ∃ c ∈ line.toList, Recognised c := by
  constructor
  · intro tokens
    obtain ⟨token, mem⟩ := List.exists_mem_of_ne_nil _ tokens
    obtain ⟨before, c, after, kind, same, role, -⟩ := mem_scan_iff.mp mem
    refine ⟨c, by simp [same], ?_⟩
    by_contra other
    rw [Place.role_eq_separates_iff.mpr other] at role
    cases role
  · rintro ⟨c, mem, known⟩
    obtain ⟨before, after, same⟩ := List.append_of_mem mem
    obtain ⟨token, found, -⟩ := exists_mem_scanFrom .opening 0 same known (Nat.zero_le _)
    exact List.ne_nil_of_mem found

end PrefixArith.Token
