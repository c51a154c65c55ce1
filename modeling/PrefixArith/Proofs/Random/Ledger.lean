import PrefixArith.Proofs.Random.Words

/-!
# What words are taken for

A ledger has an entry for each word that a draw takes, in order, and says what the word is taken
for. A uniform choice may take several words, of which it rejects all but the last one (`Chooses`).
Ledgers are kept along with the steps of a draw (`Keeps`), and what they hold is all that a draw
depends on: from any other source that begins with the same words it yields the same.
-/
namespace PrefixArith.Random

/-- What a word is taken for. -/
inductive Purpose where
  | operator | literal | nesting
  /-- A uniform choice refuses it. -/
  | rejected
  deriving DecidableEq, Repr

/-- A word that is taken. -/
structure Entry where
  word : UInt64
  purpose : Purpose
  deriving DecidableEq, Repr

/-- The words that are taken, in order. -/
abbrev Ledger := List Entry

/-- How many words are taken for a purpose. -/
def tally (purpose : Purpose) (ledger : Ledger) : Nat :=
  ledger.countP fun entry => entry.purpose = purpose

section Tally
variable {purpose : Purpose}

@[simp] theorem tally_nil : tally purpose [] = 0 := rfl

theorem tally_cons (entry : Entry) (ledger : Ledger) :
    tally purpose (entry :: ledger) =
      tally purpose ledger + if entry.purpose = purpose then 1 else 0 := by
  rw [tally, List.countP_cons, tally]
  simp only [decide_eq_true_eq]

@[simp] theorem tally_append (ledger later : Ledger) :
    tally purpose (ledger ++ later) = tally purpose ledger + tally purpose later :=
  List.countP_append

/-- Every word is taken for one purpose. -/
theorem length_eq_tally (ledger : Ledger) :
    ledger.length =
      tally .operator ledger + tally .literal ledger + tally .rejected ledger +
        tally .nesting ledger := by
  induction ledger with
  | nil => rfl
  | cons entry ledger ih =>
    obtain ⟨word, purpose⟩ := entry
    rw [List.length_cons, ih, tally_cons, tally_cons, tally_cons, tally_cons]
    cases purpose <;> simp only [reduceCtorEq, if_true, if_false] <;> omega

end Tally

/-- The words that are taken for a purpose, in order. -/
def wordsFor (purpose : Purpose) (ledger : Ledger) : List UInt64 :=
  (ledger.filter fun entry => entry.purpose = purpose).map Entry.word

@[simp] theorem wordsFor_append (purpose : Purpose) (ledger later : Ledger) :
    wordsFor purpose (ledger ++ later) = wordsFor purpose ledger ++ wordsFor purpose later := by
  rw [wordsFor, List.filter_append, List.map_append, wordsFor, wordsFor]

/-! ## Choices -/

/-- A uniform choice: words that are rejected, and then one that selects the number. -/
inductive Chooses (purpose : Purpose) (range : Nat) : Ledger → Nat → Prop
  | selected {word : UInt64} {n : Nat} (selects : selected? range word = some n) :
      Chooses purpose range [⟨word, purpose⟩] n
  | rejected {word : UInt64} {ledger : Ledger} {n : Nat} (rejects : selected? range word = none)
      (later : Chooses purpose range ledger n) :
      Chooses purpose range (⟨word, .rejected⟩ :: ledger) n

/-- A choice of a literal. The range of all words rejects none. -/
inductive ChoosesLiteral (least greatest : Int64) : Ledger → Int64 → Prop
  | whole {word : UInt64} (all : (greatest.toInt - least.toInt + 1).toNat = UInt64.size) :
      ChoosesLiteral least greatest [⟨word, .literal⟩] word.toInt64
  | part {ledger : Ledger} {n : Nat} (few : (greatest.toInt - least.toInt + 1).toNat ≠ UInt64.size)
      (chosen : Chooses .literal (greatest.toInt - least.toInt + 1).toNat ledger n) :
      ChoosesLiteral least greatest ledger (Int64.ofInt (least.toInt + n))

/-- A decision to nest or not. A sure one takes no word. -/
inductive Decides (probability : Binary64) : Ledger → Bool → Prop
  | sure (one : probability.isOne = true) : Decides probability [] true
  | drawn {word : UInt64} (unsure : probability.isOne = false) :
      Decides probability [⟨word, .nesting⟩] (word.toNat < probability.scaled)

section Choices
variable {purpose other : Purpose} {ledger : Ledger}

theorem Chooses.tally_eq {range n : Nat} (chosen : Chooses purpose range ledger n)
    (accepted : other ≠ .rejected) : tally other ledger = if purpose = other then 1 else 0 := by
  induction chosen with
  | selected selects => rw [tally_cons, tally_nil, Nat.zero_add]
  | rejected rejects later ih => rw [tally_cons, ih, if_neg accepted.symm, Nat.add_zero]

theorem ChoosesLiteral.tally_eq {least greatest v : Int64}
    (chosen : ChoosesLiteral least greatest ledger v) (accepted : other ≠ .rejected) :
    tally other ledger = if .literal = other then 1 else 0 := by
  cases chosen with
  | whole all => rw [tally_cons, tally_nil, Nat.zero_add]
  | part few chosen => exact chosen.tally_eq accepted

theorem Decides.tally_eq {probability : Binary64} {happens : Bool}
    (decided : Decides probability ledger happens) :
    tally other ledger = if probability.isOne = false ∧ .nesting = other then 1 else 0 := by
  cases decided with
  | sure one => simp [one]
  | drawn unsure => simp [tally_cons, unsure]

end Choices

/-! ## Draws that keep a ledger -/

/-- Whatever the draw yields, there is a ledger for it, and the source begins with the words there.
From every source that does the draw yields the same and takes just these words. -/
def Keeps {α : Type} (draw : Draw α) (books : Ledger → α → Prop) : Prop :=
  ∀ source a after, draw.run source = some (a, after) →
    ∃ ledger, books ledger a ∧ source.Begins (ledger.map Entry.word) ∧
      Yields draw (ledger.map Entry.word) a

namespace Keeps
variable {α β : Type}

theorem ret {books : Ledger → α → Prop} {a : α} (holds : books [] a) : Keeps (pure a) books := by
  intro source b after drawn
  obtain ⟨rfl, -⟩ := run_pure_eq_some.mp drawn
  refine ⟨[], holds, ?_, Yields.ret a⟩
  intro n word found
  cases found

theorem imp {draw : Draw α} {one books : Ledger → α → Prop} (keeps : Keeps draw one)
    (all : ∀ {ledger a}, one ledger a → books ledger a) : Keeps draw books := by
  intro source a after drawn
  obtain ⟨ledger, booked, known⟩ := keeps source a after drawn
  exact ⟨ledger, all booked, known⟩

/-- The ledger of two steps is that of the first and then that of the second one. -/
theorem bind {first : Draw α} {next : α → Draw β} {one : Ledger → α → Prop}
    {books : Ledger → β → Prop} (keeps : Keeps first one) (other : α → Ledger → β → Prop)
    (each : ∀ a, Keeps (next a) (other a))
    (both : ∀ {a b ledger later}, one ledger a → other a later b → books (ledger ++ later) b) :
    Keeps (first >>= next) books := by
  intro source b after drawn
  obtain ⟨a, middle, step, rest⟩ := run_bind_eq_some.mp drawn
  obtain ⟨ledger, booked, begins, yields⟩ := keeps source a middle step
  obtain rfl : middle = source.skip (ledger.map Entry.word).length := by
    have same := step.symm.trans (yields source begins)
    rw [Option.some_inj, Prod.mk.injEq] at same
    exact same.2
  obtain ⟨later, booked', begins', yields'⟩ := each a _ b after rest
  refine ⟨ledger ++ later, both booked booked', ?_⟩
  rw [List.map_append]
  exact ⟨begins.append begins', yields.bind yields'⟩

/-- What is done with a choice in the end takes no word. -/
theorem map {first : Draw α} {one : Ledger → α → Prop} {books : Ledger → β → Prop} {f : α → β}
    (keeps : Keeps first one) (all : ∀ {ledger a}, one ledger a → books ledger (f a)) :
    Keeps (do return f (← first)) books := by
  refine keeps.bind (fun a ledger b => ledger = [] ∧ b = f a) (fun a => .ret ⟨rfl, rfl⟩) ?_
  rintro a b ledger later booked ⟨rfl, rfl⟩
  rw [List.append_nil]
  exact all booked

end Keeps

/-- What a word is taken for may depend on the word. -/
theorem nextWord_keeps (purpose : UInt64 → Purpose) :
    Keeps nextWord fun ledger word => ledger = [⟨word, purpose word⟩] := by
  intro source word after drawn
  have next : source.word source.taken = word := congrArg Prod.fst (Option.some_inj.mp drawn)
  refine ⟨[⟨word, purpose word⟩], rfl, ?_, nextWord_yields word⟩
  intro n other found
  cases n with
  | zero => exact next.trans (Option.some_inj.mp found)
  | succ n => cases found

theorem below_keeps (purpose : Purpose) (range patience : Nat) :
    Keeps (below range patience) (Chooses purpose range) := by
  induction patience with
  | zero =>
    intro source n after drawn
    cases drawn
  | succ patience ih =>
    let verdict (word : UInt64) : Purpose :=
      if (selected? range word).isSome then purpose else .rejected
    unfold below
    refine (nextWord_keeps verdict).bind
      (fun word ledger n => Chooses purpose range (⟨word, verdict word⟩ :: ledger) n)
        (fun word => ?_) ?_
    · cases selects : selected? range word with
      | some n =>
        have accepted : verdict word = purpose := if_pos (by rw [selects, Option.isSome_some])
        rw [accepted]
        exact .ret (.selected selects)
      | none =>
        have refused : verdict word = .rejected := if_neg (by simp [selects])
        rw [refused]
        exact ih.imp fun later => .rejected selects later
    · rintro word n _ later rfl chosen
      exact chosen

theorem between_keeps (least greatest : Int64) (patience : Nat) :
    Keeps (between least greatest patience) (ChoosesLiteral least greatest) := by
  unfold between
  simp only
  split
  · next all =>
    refine (nextWord_keeps fun _ => .literal).map ?_
    rintro _ word rfl
    exact .whole all
  · next few => exact (below_keeps .literal _ patience).map fun chosen => .part few chosen

theorem chance_keeps (probability : Binary64) :
    Keeps (chance probability) (Decides probability) := by
  unfold chance
  split
  · next one => exact .ret (.sure one)
  · next unsure =>
    refine (nextWord_keeps fun _ => .nesting).map ?_
    rintro _ word rfl
    exact .drawn (Bool.eq_false_iff.mpr unsure)

end PrefixArith.Random
