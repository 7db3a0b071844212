import Rollout.Files.IoError
import Rollout.Text.Path
import Rollout.Text.Utf8

/-!
# Files

A tree of files and directories, and the operations that the program does on it.

* A path is followed component by component; `Files.follow` says where it leads or why it leads
  nowhere.
* A directory can be opened like a file. Only reading it fails.
* Writing creates a file or replaces its content; the directory that holds it must exist.
* Files belong to the user, so that of a file's permissions those of the owner count. What is
  counted from the root belongs to others, apart from `/tmp`.
-/

namespace Rollout

/-- What a path can name. -/
inductive Entry where
  | file (content : Bytes) (mode : Nat)
  | directory
deriving DecidableEq, Repr

/-- The bytes of an opened entry. -/
def Entry.read : Entry → Except IoError Bytes
  | .file content _ => .ok content
  | .directory => .error .isDirectory

/-- Where an entry stands: the names on the way from the working directory, or from the root when
the first of them is a slash. -/
abbrev Place := List (List Char)

/-- Files and directories by their place. -/
structure Files where
  entries : List (Place × Entry)
deriving Repr, Inhabited

namespace Files

/-- No file but the working directory and the root. -/
def empty : Files := ⟨[]⟩

/-- The first name of a place that is counted from the root. -/
def rootName : List Char := ['/']

/-- The entry at a place. -/
def entry? (files : Files) (place : Place) : Option Entry :=
  if place.isEmpty ∨ place = [rootName] then some .directory else files.entries.lookup place

/-- The place of the directory that holds a place. -/
def parent (place : Place) : Place :=
  if place = [rootName] then place else place.dropLast

/-- The most bytes of a name. -/
def maxName : Nat := 255

/-- The most bytes of a path. -/
def maxPath : Nat := 4095

/-- Follows components from a place. The last name need not exist. -/
def followFrom (files : Files) : Place → List (List Char) → Except IoError Place
  | place, [] => .ok place
  | place, name :: rest =>
    match files.entry? place with
    | none => .error .notFound
    | some (.file _ _) => .error .notDirectory
    | some .directory =>
      if name.isEmpty ∨ name = ['.'] then files.followFrom place rest
      else if name = ['.', '.'] then files.followFrom (parent place) rest
      else if maxName < (String.ofList name).utf8ByteSize then .error .nameTooLong
      else files.followFrom (place ++ [name]) rest

/-- The place that components lead to, from the root when the first of them is empty. -/
def followParts (files : Files) : List (List Char) → Except IoError Place
  | [] :: rest@(_ :: _) => files.followFrom [rootName] rest
  | parts => files.followFrom [] parts

/-- The components of a path that is neither empty nor too long. -/
def parts (path : String) : Except IoError (List (List Char)) :=
  if '\x00' ∈ path.toList then .error .nullInName
  else if path.isEmpty then .error .notFound
  else if maxPath < path.utf8ByteSize then .error .nameTooLong
  else .ok (Text.Path.split '/' path.toList)

/-- The place that a path leads to. -/
def follow (files : Files) (path : String) : Except IoError Place :=
  match parts path with
  | .error e => .error e
  | .ok parts => files.followParts parts

/-- The entry that a path names. -/
def find (files : Files) (path : String) : Except IoError Entry :=
  match files.follow path with
  | .error e => .error e
  | .ok place =>
    match files.entry? place with
    | some entry => .ok entry
    | none => .error .notFound

/-- Whether the owner may read a file of a mode. -/
def readable (mode : Nat) : Bool := mode &&& 0o400 != 0

/-- Whether the owner may write to a file of a mode. -/
def writable (mode : Nat) : Bool := mode &&& 0o200 != 0

/-- Opens a file for reading. -/
def openEntry (files : Files) (path : String) : Except IoError Entry :=
  match files.find path with
  | .ok (.file content mode) =>
    if readable mode then .ok (.file content mode) else .error .denied
  | r => r

/-- The bytes of a file. -/
def readBytes (files : Files) (path : String) : Except IoError Bytes :=
  match files.openEntry path with
  | .ok entry => entry.read
  | .error e => .error e

/-- The text of a file. -/
def readText (files : Files) (path : String) : Except IoError String :=
  match files.readBytes path with
  | .error e => .error e
  | .ok content =>
    match Text.Utf8.text? content with
    | some s => .ok s
    | none => .error .notText

/-- Puts an entry in a place. -/
def put (files : Files) (place : Place) (entry : Entry) : Files :=
  ⟨(place, entry) :: files.entries.filter (·.1 != place)⟩

/-- The mode of a file after `mode` was set and `content` was written. A mode has twelve bits, and
writing takes away the right to run as someone else. -/
def settledMode (mode : Nat) (content : Bytes) : Nat :=
  let mode := mode % 0o10000
  if content.isEmpty then mode
  else
    let mode := if mode &&& 0o4000 = 0 then mode else mode - 0o4000
    if mode &&& 0o2000 = 0 ∨ mode &&& 0o10 = 0 then mode else mode - 0o2000

/-- Whether a place belongs to others. -/
def foreign (place : Place) : Bool :=
  place.head? = some rootName && place.take 2 != [rootName, "tmp".toList]

/-- Creates a file or replaces it. A path that ends in a slash is that of a directory, whether there
is one or not. -/
def write (files : Files) (path : String) (content : Bytes) (mode : Nat) :
    Except IoError Files := do
  let parts ← parts path
  let named := (parts.reverse.dropWhile List.isEmpty).reverse
  if named.length < parts.length then
    let _ ← files.followParts (named.dropLast ++ [[]])
    .error .isDirectory
  else
    let place ← files.followParts parts
    let allowed : Bool ←
      match files.entry? place with
      | some .directory => .error .isDirectory
      | some (.file _ old) => pure (writable old)
      | none => pure true
    if allowed && !foreign place then
      .ok (files.put place (.file content (settledMode mode content)))
    else .error .denied

/-- Goes into a directory, which is made where nothing has its name. -/
def enter (way : Files × Place) (name : List Char) : Files × Place :=
  let (files, place) := way
  if name = ['.', '.'] then (files, parent place)
  else
    match files.entry? (place ++ [name]) with
    | some _ => (files, place ++ [name])
    | none => (files.put (place ++ [name]) .directory, place ++ [name])

/-- Puts an entry where a path leads, with the directories on the way. -/
def install (files : Files) (path : String) (entry : Entry) : Files :=
  let names := Text.Path.components path
  let origin := if path.toList.head? = some '/' then [rootName] else []
  match names.getLast? with
  | none => files
  | some name =>
    let (files, place) := names.dropLast.foldl enter (files, origin)
    files.put (place ++ [name]) entry

/-- Removes what a path names. -/
def remove (files : Files) (path : String) : Files :=
  match files.follow path with
  | .ok place => ⟨files.entries.filter (·.1 != place)⟩
  | .error _ => files

end Files

end Rollout
