import Mathlib.Data.List.Basic
import PrefixArith.CommandLine.Storage
import PrefixArith.Proofs.Text.Unbroken

/-!
# Files that keep what is written to them

A result on a whole run is about every storage that keeps the promises of a file system (`Lawful`).
What a path looks like and which file it leads to, in what folder and through what links, is up to
the storage. The folder on its own is one of them (`Directory.lawful_storage`).
-/
namespace PrefixArith.CommandLine

open Text (Unbroken)

/-! ## What a storage promises -/

namespace Storage
variable {State : Type}

/-- What is read at a path, and the state that the reading leaves. -/
def readFrom (storage : Storage (StateM State)) (state : State) (path : String) :
    Option (List UInt8) × State :=
  (storage.read? path).run state

/-- The reason why a write fails, if it does, and the state that it leaves. -/
def writeTo (storage : Storage (StateM State)) (state : State) (path : String)
    (bytes : List UInt8) :
    Option String × State :=
  (storage.write path bytes).run state

/-- The bytes of the file that a path leads to, if it can be read. -/
def content? (storage : Storage (StateM State)) (state : State) (path : String) :
    Option (List UInt8) :=
  (storage.readFrom state path).1

/-- The promises of a file system. Two paths for which `apart` holds in a state lead to different
files there. -/
structure Lawful (storage : Storage (StateM State)) (apart : State → String → String → Prop) :
    Prop where
  /-- A read changes nothing. -/
  read_keeps (state : State) (path : String) : (storage.readFrom state path).2 = state
  /-- A write that fails changes nothing. -/
  refused_keeps {state after : State} {path reason : String} {bytes : List UInt8} :
    storage.writeTo state path bytes = (some reason, after) → after = state
  /-- A written file has the written bytes, whatever it held before. -/
  written_reads {state after : State} {path : String} {bytes : List UInt8} :
    storage.writeTo state path bytes = (none, after) → storage.content? after path = some bytes
  /-- A write reaches no other file. -/
  others_keep {state after : State} {path other : String} {bytes : List UInt8} :
    storage.writeTo state path bytes = (none, after) → apart state path other →
      storage.content? after other = storage.content? state other

/-- The reason of a failed write takes one line. -/
def ReasonsUnbroken (storage : Storage (StateM State)) : Prop :=
  ∀ {state after : State} {path reason : String} {bytes : List UInt8},
    storage.writeTo state path bytes = (some reason, after) → Unbroken reason

variable {storage : Storage (StateM State)} {apart : State → String → String → Prop}

theorem Lawful.readFrom_eq (lawful : storage.Lawful apart) (state : State) (path : String) :
    storage.readFrom state path = (storage.content? state path, state) :=
  Prod.ext rfl (lawful.read_keeps state path)

end Storage

/-! ## The folder on its own -/

namespace Directory

variable {directory : Directory} {name : String} {bytes : List UInt8}

/-- The first file decides about its own name and about no other. -/
theorem lookup_cons (name : String) (file : String × List UInt8)
    (files : List (String × List UInt8)) :
    (file :: files).lookup name = if name = file.1 then some file.2 else files.lookup name := by
  rw [List.lookup_cons]
  by_cases own : name = file.1
  · rw [if_pos own, beq_iff_eq.mpr own]
  · rw [if_neg own, beq_eq_false_iff_ne.mpr own]

theorem lookup_putInto (name other : String) (bytes : List UInt8)
    (files : List (String × List UInt8)) :
    (putInto name bytes files).lookup other =
      if other = name then some bytes else files.lookup other := by
  induction files with
  | nil => rw [putInto, lookup_cons]
  | cons file files ih =>
    by_cases taken : file.1 = name
    · rw [putInto, if_pos taken, lookup_cons, lookup_cons, taken]
      split <;> rfl
    · rw [putInto, if_neg taken, lookup_cons, lookup_cons, ih]
      by_cases own : other = file.1
      · rw [if_pos own, if_neg (own ▸ taken), if_pos own]
      · rw [if_neg own, if_neg own]

theorem find?_put (directory : Directory) (name : String) (bytes : List UInt8) :
    (directory.put name bytes).find? name = some bytes := by
  rw [find?, put, lookup_putInto, if_pos rfl]

theorem find?_put_of_ne {other : String} (apart : other ≠ name) :
    (directory.put name bytes).find? other = directory.find? other := by
  rw [find?, put, lookup_putInto, if_neg apart, find?]

variable {path : String}

/-- The parts of a path that are passed on the way to a file do not name one. -/
theorem enter_of_ok {inside inside' : Bool} {part : List Char}
    (passed : directory.enter inside part = .ok inside') (other : Directory) :
    other.enter inside part = .ok inside' := by
  unfold enter at passed ⊢
  by_cases here : part = ['.']
  · rwa [if_pos here] at passed ⊢
  · by_cases around : part = ['.', '.']
    · rwa [if_neg here, if_pos around] at passed ⊢
    · rw [if_neg here, if_neg around] at passed
      split at passed
      · cases passed
      · split at passed <;> cases passed

theorem foldlM_enter_of_ok {inside inside' : Bool} {parts : List (List Char)}
    (passed : parts.foldlM directory.enter inside = .ok inside') (other : Directory) :
    parts.foldlM other.enter inside = .ok inside' := by
  induction parts generalizing inside with
  | nil => exact passed
  | cons part parts ih =>
    rw [List.foldlM_cons] at passed ⊢
    cases first : directory.enter inside part with
    | error error =>
      rw [first] at passed
      cases passed
    | ok middle =>
      rw [first] at passed
      rw [enter_of_ok first other]
      exact ih passed

/-- A path that leads to the name of a file does so whatever files there are. -/
theorem nameOf_of_ok (leads : directory.nameOf path = .ok name) (other : Directory) :
    other.nameOf path = .ok name := by
  unfold nameOf at leads ⊢
  dsimp only at leads ⊢
  split at leads
  · cases leads
  · next filled =>
    split at leads
    · cases leads
    · next short =>
      rw [if_neg filled, if_neg short]
      cases final : ((segments path.toList).filter fun part => part ≠ []).getLast? with
      | none =>
        rw [final] at leads
        cases leads
      | some last =>
        rw [final] at leads
        dsimp only at leads ⊢
        -- Only the way to the last part looks at the files.
        split at leads
        · cases leads
        · next passed =>
          rw [foldlM_enter_of_ok passed other]
          exact leads

/-- A write changes the folder if the path leads to a name, and otherwise says why it does not. -/
theorem writeTo_eq (directory : Directory) (path : String) (bytes : List UInt8) :
    storage.writeTo directory path bytes =
      match directory.nameOf path with
      | .ok name => (none, directory.put name bytes)
      | .error error => (some error.message, directory) := by
  change (match directory.nameOf path with
    | .ok name => (do set (directory.put name bytes); return none : StateM Directory _)
    | .error error => return some error.message).run directory = _
  cases directory.nameOf path <;> rfl

theorem content?_eq (directory : Directory) (path : String) :
    storage.content? directory path = (directory.nameOf path).toOption.bind directory.find? := rfl

theorem content?_of_ok (leads : directory.nameOf path = .ok name) :
    storage.content? directory path = directory.find? name := by
  rw [content?_eq, leads]
  rfl

/-- The paths do not lead to one name. -/
def Apart (directory : Directory) (path other : String) : Prop :=
  ∀ name, directory.nameOf path = .ok name → directory.nameOf other ≠ .ok name

/-- A path that does not lead to the written name is read as before. -/
theorem content?_put_of_apart {other : String} (leads : directory.nameOf path = .ok name)
    (apart : directory.Apart path other) (bytes : List UInt8) :
    storage.content? (directory.put name bytes) other = storage.content? directory other := by
  cases there : directory.nameOf other with
  | ok name' =>
    have different : name' ≠ name := by
      rintro rfl
      exact apart name' leads there
    rw [content?_of_ok there, content?_of_ok (nameOf_of_ok there _), find?_put_of_ne different]
  | error error =>
    -- A name that is found after the write was one before it.
    cases behind : (directory.put name bytes).nameOf other with
    | ok name' =>
      rw [nameOf_of_ok behind directory] at there
      cases there
    | error error' =>
      rw [content?_eq, content?_eq, there, behind]
      rfl

theorem lawful_storage : storage.Lawful Apart where
  read_keeps directory path := rfl
  refused_keeps {directory after path reason bytes} refused := by
    rw [writeTo_eq] at refused
    split at refused
    · cases refused
    · exact (Prod.mk.inj refused).2.symm
  written_reads {directory after path bytes} written := by
    rw [writeTo_eq] at written
    split at written
    · next name leads =>
      obtain ⟨-, rfl⟩ := Prod.mk.inj written
      rw [content?_of_ok (nameOf_of_ok leads _), find?_put]
    · cases written
  others_keep {directory after path other bytes} written apart := by
    rw [writeTo_eq] at written
    split at written
    · next name leads =>
      obtain ⟨-, rfl⟩ := Prod.mk.inj written
      exact content?_put_of_apart leads apart bytes
    · cases written

theorem reasonsUnbroken_storage : storage.ReasonsUnbroken := by
  intro directory after path reason bytes refused
  rw [writeTo_eq] at refused
  split at refused
  · cases refused
  · next error _ =>
    obtain ⟨message, -⟩ := Prod.mk.inj refused
    rw [← Option.some_inj.mp message]
    cases error <;> decide +kernel

end Directory

end PrefixArith.CommandLine
