/-!
# Files

A program reads and writes whole files by path. `Storage` says how, in any monad: which file a path
leads to is up to the storage. `Directory` is a small one, a folder that holds files and no other
folders, with nothing known of what lies around it.
-/
namespace PrefixArith.CommandLine

/-- Reading gives nothing where there is no readable file. Writing gives the reason if it fails. -/
structure Storage (m : Type → Type) where
  read? : (path : String) → m (Option (List UInt8))
  write : (path : String) → (bytes : List UInt8) → m (Option String)

/-- Why a path leads to no file. -/
inductive PathError where
  | notFound | notDirectory | isDirectory | nameTooLong
  deriving DecidableEq, Repr

def PathError.message : PathError → String
  | .notFound => "No such file or directory (os error 2)"
  | .notDirectory => "Not a directory (os error 20)"
  | .isDirectory => "Is a directory (os error 21)"
  | .nameTooLong => "File name too long (os error 36)"

/-- The parts of a path between its slashes. -/
def segments : List Char → List (List Char)
  | [] => [[]]
  | c :: rest =>
    match segments rest with
    | [] => [[c]]
    | first :: others => if c = '/' then [] :: first :: others else (c :: first) :: others

/-- The files of a folder on its own, each under one name. No folder lies in it, and a path that
leaves it finds nothing. -/
structure Directory where
  files : List (String × List UInt8)
  deriving DecidableEq, Repr

namespace Directory

def find? (directory : Directory) (name : String) : Option (List UInt8) :=
  directory.files.lookup name

def putInto (name : String) (bytes : List UInt8) :
    List (String × List UInt8) → List (String × List UInt8)
  | [] => [(name, bytes)]
  | file :: others =>
    if file.1 = name then (name, bytes) :: others else file :: putInto name bytes others

/-- The folder after a file has been written, which replaces a file of that name. -/
def put (directory : Directory) (name : String) (bytes : List UInt8) : Directory :=
  ⟨putInto name bytes directory.files⟩

/-- Whether a name is longer than the 255 bytes that the name of a file holds. -/
def isLong (name : List Char) : Bool := 255 < (String.ofList name).utf8ByteSize

/-- Takes the next part of a path that goes on after it. `inside` tells whether the path is still in
the folder; nothing is found outside. A point stays, two points lead to the folder around. -/
def enter (directory : Directory) (inside : Bool) (part : List Char) : Except PathError Bool :=
  if part = ['.'] then .ok inside
  else if part = ['.', '.'] then .ok false
  else if isLong part then .error .nameTooLong
  else if inside ∧ (directory.find? (String.ofList part)).isSome then .error .notDirectory
  else .error .notFound

/-- The name of the file that a path leads to. The parts before the last one have to lead to a
folder. A last part of points and a slash at the end ask for a folder as well, which is no file. -/
def nameOf (directory : Directory) (path : String) : Except PathError String :=
  let parts := (segments path.toList).filter fun part => part ≠ []
  if path = "" then .error .notFound
  else if 4095 < path.utf8ByteSize then .error .nameTooLong
  else match parts.getLast? with
  | none => .error .isDirectory
  | some last =>
    match parts.dropLast.foldlM directory.enter (path.toList.head? ≠ some '/') with
    | .error error => .error error
    | .ok inside =>
      if last = ['.'] ∨ last = ['.', '.'] ∨ path.toList.getLast? = some '/' then .error .isDirectory
      else if isLong last then .error .nameTooLong
      else if inside then .ok (String.ofList last)
      else .error .notFound

/-- Reading and writing the files of a folder. -/
def storage : Storage (StateM Directory) where
  read? path := do
    let directory ← get
    return (directory.nameOf path).toOption.bind directory.find?
  write path bytes := do
    let directory ← get
    match directory.nameOf path with
    | .ok name => do
      set (directory.put name bytes)
      return none
    | .error error => return some error.message

/-- The files of `after` that are not in `before` with the same content. -/
def changes (before after : Directory) : List (String × List UInt8) :=
  after.files.filter fun file => before.find? file.1 ≠ some file.2

end Directory

end PrefixArith.CommandLine
