import PrefixArith.Proofs.Script.Lines
import PrefixArith.Proofs.Text.Bytes

/-!
# Scripts of any bytes

A script is decoded before it is answered. Bytes that are not UTF-8 change the line that they stand
on and no other: the outcome of a line is that of its own bytes.
-/
namespace PrefixArith.Script

open PrefixArith.Text.Utf8

/-- The outcomes of a line are those of its bytes alone, at the number that the line feeds before it
make. -/
theorem filter_decode (mode : Overflow) {before line ending after : List UInt8}
    (starts : ClosedBytes before) (plain : 0x0A ∉ line)
    (ends : ending = [0x0A] ∨ ending = [] ∧ after = []) :
    (outcomes mode (decode (before ++ line ++ ending ++ after))).filter
        (·.line = before.count 0x0A + 1) =
      outcomesFrom mode (before.count 0x0A + 1) (Text.lines (decode (line ++ ending))) := by
  have number : numberAfter (decode before) = before.count 0x0A + 1 := by
    rw [numberAfter, ← count_decode (b := 0x0A) (by decide)]
    rfl
  have plain' : '\n' ∉ (decode line).toList :=
    mt (ascii_mem_decode_iff (b := 0x0A) (by decide)).mp plain
  have starts' := closed_decode starts
  rw [← number]
  rcases ends with rfl | ⟨rfl, rfl⟩
  · rw [decode_append_feed, decode_append starts, decode_feed]
    exact (filter_around mode starts' plain' (.inl rfl)).1
  · have alone : (outcomes mode (decode before ++ decode line ++ "" ++ "")).filter
        (·.line = numberAfter (decode before)) =
      outcomesFrom mode (numberAfter (decode before)) (Text.lines (decode line ++ "")) :=
        (filter_around mode starts' plain' (.inr ⟨rfl, rfl⟩)).1
    simpa only [decode_append starts, List.append_nil, String.append_empty] using alone

/-- Bytes are read as characters and maximal invalid parts, and a line feed parts what is read
before it from what is read behind it. So the lines of a text are those of its bytes, and two files
that agree on a line, its end and its number have the same outcome there. -/
theorem outcomes_of_own_bytes (mode : Overflow) :
    (∀ bytes text, Decodes bytes text ↔ text = (decode bytes).toList) ∧
    (∀ a b, decode (a ++ [0x0A] ++ b) = decode a ++ "\n" ++ decode b) ∧
    (∀ bytes, Text.lines (decode bytes) = (Text.linesBy 0x0A 0x0D bytes).map decode) ∧
    ∀ before before' line ending after after', ClosedBytes before → ClosedBytes before' →
      before.count 0x0A = before'.count 0x0A → 0x0A ∉ line →
      (ending = [0x0A] ∨ ending = [0x0D, 0x0A] ∨ ending = [] ∧ after = [] ∧ after' = []) →
      (outcomes mode (decode (before ++ line ++ ending ++ after))).filter
          (·.line = before.count 0x0A + 1) =
        (outcomes mode (decode (before' ++ line ++ ending ++ after'))).filter
          (·.line = before.count 0x0A + 1) := by
  refine ⟨fun _ _ => decodes_iff, decode_append_feed, lines_decode, ?_⟩
  intro before before' line ending after after' starts starts' count plain ends
  rcases ends with rfl | rfl | ⟨rfl, rfl, rfl⟩
  · rw [filter_decode mode starts plain (.inl rfl), count,
      filter_decode mode starts' plain (.inl rfl)]
  · -- A carriage return at the end counts to the line.
    have parts (before after : List UInt8) :
        before ++ line ++ [0x0D, 0x0A] ++ after =
          before ++ (line ++ [0x0D]) ++ [0x0A] ++ after := by
      simp
    have carried : 0x0A ∉ line ++ [0x0D] := by simp [plain]
    rw [parts, parts, filter_decode mode starts carried (.inl rfl), count,
      filter_decode mode starts' carried (.inl rfl)]
  · rw [filter_decode mode starts plain (.inr ⟨rfl, rfl⟩), count,
      filter_decode mode starts' plain (.inr ⟨rfl, rfl⟩)]

/-- The first line of one file breaks off within a character, and the other one begins with a
surrogate. The second line holds a byte that is not UTF-8. -/
theorem outcomes_of_own_bytes_of_truncated :
    let before : List UInt8 := [0x28, 0x2B, 0xE2, 0x82, 0x0A]
    let before' : List UInt8 := [0xED, 0xA0, 0x80, 0x0A]
    let line : List UInt8 := [0xFF, 0x28, 0x78, 0x20, 0x31, 0x29]
    let ending : List UInt8 := [0x0D, 0x0A]
    (ClosedBytes before ∧ ClosedBytes before' ∧ before.count 0x0A = before'.count 0x0A ∧
        0x0A ∉ line ∧ ending = [0x0D, 0x0A]) ∧
      (outcomes .checked (decode (before ++ line ++ ending ++ [0xF0, 0x9F]))).filter (·.line = 2) =
        [⟨2, .fault (.evaluation (.unsupported "x" 4))⟩] ∧
      (outcomes .checked (decode (before' ++ line ++ ending ++ []))).filter (·.line = 2) =
        [⟨2, .fault (.evaluation (.unsupported "x" 4))⟩] := by
  intro before before' line ending
  have starts : ClosedBytes before := .inr ⟨[0x28, 0x2B, 0xE2, 0x82], rfl⟩
  have starts' : ClosedBytes before' := .inr ⟨[0xED, 0xA0, 0x80], rfl⟩
  have count : before.count 0x0A = before'.count 0x0A := by decide
  have plain : 0x0A ∉ line := by decide
  have same :=
    (outcomes_of_own_bytes .checked).2.2.2 before before' line ending [0xF0, 0x9F] [] starts
    starts' count plain (.inr (.inl rfl))
  have own : (outcomes .checked (decode (before' ++ line ++ ending ++ []))).filter (·.line = 2) =
      [⟨2, .fault (.evaluation (.unsupported "x" 4))⟩] := by
    decide +kernel
  exact ⟨⟨starts, starts', count, plain, rfl⟩, same.trans own, own⟩

end PrefixArith.Script
