import PrefixArith.Proofs.Term.Relocation
import PrefixArith.Proofs.Token.Spelling

/-!
# Scanning a line in pieces

A space, a parenthesis and the text of a token are scanned one after the other. A text that does not
begin with a minus sign is scanned inside a line as it is on its own, at offsets that count from
where it stands there (`scanFrom_of_unsigned`).
-/
namespace PrefixArith.Token

/-! ## Delimiters -/

theorem significant_scanFrom_lparen (place : Place) (offset : Nat) (rest : List Char) :
    significant (scanFrom place offset ('(' :: rest)) =
      significant (scanFrom .opening (offset + 1) rest) := by
  have role : place.role '(' = .starts .paren := by simp [Place.role]
  rw [scanFrom_of_starts role]
  rfl

theorem significant_scanFrom_rparen (place : Place) (offset : Nat) :
    significant (scanFrom place offset [')']) = [] := by
  have role : place.role ')' = .starts .paren := by simp [Place.role]
  rw [scanFrom_of_starts role]
  rfl

theorem scanFrom_space (place : Place) (offset : Nat) (rest : List Char) :
    scanFrom place offset (' ' :: rest) = scanFrom .elsewhere (offset + 1) rest := by
  have role : place.role ' ' = .separates := by simp [Place.role]
  rw [scanFrom_of_separates role]
  rfl

theorem stops_space (rest : List Char) : Stops (' ' :: rest) := stops_cons rest (by decide)

theorem stops_rparen : Stops [')'] := stops_cons [] (by decide)

/-! ## Texts -/

/-- A text is scanned on its own up to a place where it stops. -/
theorem scanFrom_text_append {text : String} {after : List Char} (stops : Stops after)
    (place : Place)
    (offset : Nat) :
    scanFrom place offset (text.toList ++ after) = scanFrom place offset text.toList ++
      scanFrom (place.behind text.toList) (offset + text.utf8ByteSize) after := by
  rw [scanFrom_append (stops.run_eq _), Text.byteSize_toList]

/-- What follows a space changes no token before it. -/
theorem scan_append_space (line more : String) :
    scan (line ++ " " ++ more) =
      scan line ++ scanFrom .elsewhere (line.utf8ByteSize + 1) more.toList := by
  have chars : (line ++ " " ++ more).toList = line.toList ++ ' ' :: more.toList := by simp
  rw [scan, chars, scanFrom_text_append (stops_space more.toList), scanFrom_space, Nat.zero_add,
    scan]

/-- An application opens with its own token, and its operands stand where minus signs sign
numbers. -/
theorem significant_scanFrom_application {token : Token} (spelled : token.Spelled)
    (kind : token.kind = .operator ∨ token.kind = .keyword) (place : Place) (offset : Nat)
    (operands : List Char) :
    significant (scanFrom place offset ('(' :: (token.text.toList ++ ' ' :: operands))) =
      (token.relocate fun _ => offset + 1) ::
        significant (scanFrom .elsewhere (offset + token.text.utf8ByteSize + 2) operands) := by
  have suits : token.Suits .opening := by
    intro minus
    rcases kind with kind | kind
    · simp [kind]
    · simp only [Spelled, kind] at spelled
      obtain ⟨rest, same⟩ := List.head?_eq_some_iff.mp minus
      have letter := spelled.2 '-' (by simp [same])
      simp at letter
  have solid := isParen_of_application kind
  rw [significant_scanFrom_lparen, scanFrom_text_append (stops_space operands),
    scanFrom_text spelled (.inl rfl) suits, scanFrom_space, significant_append]
  have places :
    offset + 1 + token.text.utf8ByteSize + 1 = offset + token.text.utf8ByteSize + 2 := by
    omega
  have alone : significant [⟨token.kind, token.text, offset + 1⟩] =
      [token.relocate fun _ => offset + 1] := significant_singleton solid
  rw [places, alone, List.singleton_append]

/-! ## Texts at other offsets -/

/-- A scan from a later offset finds the same tokens, as much later. -/
theorem scanFrom_add (place : Place) (offset shift : Nat) (chars : List Char) :
    scanFrom place (offset + shift) chars =
      (scanFrom place offset chars).map (relocate (· + shift)) := by
  induction chars generalizing place offset with
  | nil => rfl
  | cons c rest ih =>
    have later := ih (place.after c) (offset + c.utf8Size)
    rw [Nat.add_right_comm] at later
    cases role : place.role c with
    | starts kind =>
      rw [scanFrom_of_starts role, scanFrom_of_starts role, later, List.map_cons]
      rfl
    | continues => rw [scanFrom_of_continues role, scanFrom_of_continues role, later]
    | separates => rw [scanFrom_of_separates role, scanFrom_of_separates role, later]

/-- Only a minus sign tells an opening from another place where no run is going on. -/
theorem scanFrom_elsewhere {chars : List Char} (unsigned : chars.head? ≠ some '-') (offset : Nat) :
    scanFrom .elsewhere offset chars = scanFrom .opening offset chars := by
  cases chars with
  | nil => rfl
  | cons c rest =>
    have plain : c ≠ '-' := by simpa using unsigned
    exact scanFrom_of_role_eq (Place.role_eq_opening_iff.mpr (by simp [plain]))

/-- A line that does not begin with a minus sign has the same tokens inside another line, at offsets
that count from where it stands. -/
theorem scanFrom_of_unsigned {line : String} (unsigned : line.toList.head? ≠ some '-')
    (offset : Nat) :
    scanFrom .elsewhere offset line.toList = (scan line).map (relocate (· + offset)) := by
  rw [scanFrom_elsewhere unsigned, scan, ← scanFrom_add, Nat.zero_add]

theorem significant_map_relocate (f : Nat → Nat) (tokens : List Token) :
    significant (tokens.map (relocate f)) = (significant tokens).map (relocate f) := by
  rw [significant, List.filter_map]
  rfl

end PrefixArith.Token
