import PrefixArith.Proofs.Line.Relocation
import PrefixArith.Proofs.Token.Separators

/-!
# Lines with other separators

White space and unrecognised characters have no meaning of their own. A line whose runs of
separators are replaced by others has the same tokens at other offsets, and so the same answer but
for the offset of its fault. Where every run keeps its size in bytes, nothing changes at all
(`answer?_respaced`).
-/
namespace PrefixArith.Line
open Text (byteSize)
open Token (scan Respaced Separators)

section Respaced
variable {line other : String}

theorem scan_eqUpToOffsets {alike : List Char → List Char → Prop}
    (respaced : Respaced alike line.toList other.toList) :
    (scan line).map (Token.relocate fun _ => 0) = (scan other).map (Token.relocate fun _ => 0) :=
  respaced.scanFrom_map_relocate (fun _ _ _ _ => rfl) (fun _ _ _ _ _ _ => rfl) .opening rfl

theorem scan_eq_of_sizes
    (respaced : Respaced (fun run run' => byteSize run = byteSize run') line.toList other.toList) :
    scan line = scan other := by
  have still : Token.relocate id = id := rfl
  have moved : (scan line).map (Token.relocate id) = (scan other).map (Token.relocate id) := by
    apply respaced.scanFrom_map_relocate
    · intro n m size same
      rw [show n = m from same]
    · intro n m run run' sizes same
      rw [show n = m from same, sizes]
    · rfl
  rwa [still, List.map_id, List.map_id] at moved

theorem utf8ByteSize_eq_of_sizes
    (respaced : Respaced (fun run run' => byteSize run = byteSize run') line.toList other.toList) :
    line.utf8ByteSize = other.utf8ByteSize := by
  rw [← Text.byteSize_toList, ← Text.byteSize_toList, respaced.byteSize_eq]

end Respaced

/-- A line with other separators for its own has tokens of the same kinds and texts in the same
order, and the same value or the same fault but for its offset. If each run of separators is as
large as the one that it replaces, the tokens and the answer are the same, offsets included. -/
theorem answer?_respaced (line other : String) :
    (Respaced (fun _ _ => True) line.toList other.toList →
      ((scan line).map fun token => (token.kind, token.text)) =
          ((scan other).map fun token => (token.kind, token.text)) ∧
        ∀ mode, (answer? mode line).map (Answer.relocate fun _ => 0) =
          (answer? mode other).map (Answer.relocate fun _ => 0)) ∧
    (Respaced (fun run run' => byteSize run = byteSize run') line.toList other.toList →
      scan line = scan other ∧ ∀ mode, answer? mode line = answer? mode other) := by
  constructor
  · intro respaced
    have same := scan_eqUpToOffsets respaced
    refine ⟨?_, answer?_eqUpToOffsets same⟩
    have parts := congrArg (List.map fun token => (token.kind, token.text)) same
    rwa [List.map_map, List.map_map] at parts
  · intro respaced
    have same := scan_eq_of_sizes respaced
    refine ⟨same, fun mode => ?_⟩
    rw [answer?_eq, answer?_eq, same, utf8ByteSize_eq_of_sizes respaced]

/-- The first separator takes two bytes. Two spaces may stand for it, and a tabulator for the space:
the unknown keyword is named where it was. With separators of other sizes it is named where it is
then. -/
theorem answer?_respaced_of_unknown :
    let line := "é(foo -2)"
    let other := "  (foo\t-2)"
    let wide := " (foo\r\n-2)"
    (Respaced (fun run run' => byteSize run = byteSize run') line.toList other.toList ∧
      Respaced (fun _ _ => True) line.toList wide.toList) ∧
    answer? .checked line = some (.fault (.evaluation (.unsupported "foo" 3))) ∧
    answer? .checked other = some (.fault (.evaluation (.unsupported "foo" 3))) ∧
    answer? .checked wide = some (.fault (.evaluation (.unsupported "foo" 2))) ∧
    (answer? .checked wide).map (Answer.relocate fun _ => 0) =
      some (.fault (.evaluation (.unsupported "foo" 0))) := by
  intro line other wide
  have opened : ∀ c ∈ "(foo".toList, Token.Recognised c := by
    simp [Token.Recognised, Token.symbols]
  have closed : ∀ c ∈ "-2)".toList, Token.Recognised c := by
    simp [Token.Recognised, Token.symbols]
  have chars :
    line.toList = ['é'] ++ ("(foo".toList ++ ([' '] ++ ("-2)".toList ++ []))) := by decide
  have inPlace :
    Respaced (fun run run' => byteSize run = byteSize run') line.toList other.toList := by
    have chars' :
      other.toList = [' ', ' '] ++ ("(foo".toList ++ (['\t'] ++ ("-2)".toList ++ []))) := by
      decide
    rw [chars, chars']
    exact .replace (by decide) (by decide) (by decide) (.keep_all opened
      (.replace (by decide) (by decide) (by decide) (.keep_all closed .nil)))
  have anySize : Respaced (fun _ _ => True) line.toList wide.toList := by
    have chars' :
      wide.toList = [' '] ++ ("(foo".toList ++ (['\r', '\n'] ++ ("-2)".toList ++ []))) := by
      decide
    rw [chars, chars']
    exact .replace (by decide) (by decide) trivial (.keep_all opened
      (.replace (by decide) (by decide) trivial (.keep_all closed .nil)))
  have answer : answer? .checked line = some (.fault (.evaluation (.unsupported "foo" 3))) := by
    decide +kernel
  obtain ⟨-, same⟩ := (answer?_respaced line other).2 inPlace
  obtain ⟨-, same'⟩ := (answer?_respaced line wide).1 anySize
  refine ⟨⟨inPlace, anySize⟩, answer, (same .checked).symm.trans answer, by decide +kernel, ?_⟩
  rw [← same', answer]
  rfl

end PrefixArith.Line
