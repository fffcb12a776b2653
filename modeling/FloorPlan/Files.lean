import FloorPlan.Files.Path
import FloorPlan.Entries

/-! # Files and directories

A disk is a working directory and a listing of what stands at each place: a directory or a plain
file. There are no links, no permissions and no special files. The operations fail in the ways
that those of a real disk do, and what they have done before they fail stays. -/

namespace FloorPlan

/-- Why a file operation fails. -/
inductive FileError where
  /-- Nothing stands there. -/
  | missing
  /-- Something stands there already. -/
  | taken
  /-- A directory stands where a file is needed. -/
  | isDirectory
  /-- A file stands where a directory is needed. -/
  | notDirectory
  /-- A name or a path has more bytes than a disk takes. -/
  | tooLong
  /-- Too many of the directories of a path are missing. -/
  | tooDeep
  /-- A path holds the null character. -/
  | nullCharacter
  /-- A file is not UTF-8. -/
  | undecodable
  deriving DecidableEq, Repr

/-- What stands at a place. -/
inductive Entry where
  | directory
  | file (content : ByteArray)

/-- Whether an entry is a directory. -/
def Entry.isDirectory : Entry → Bool
  | directory => true
  | file _ => false

/-- A place on the disk: the names from the top down to it. -/
abbrev Place := List String

/-- A disk with its working directory. -/
structure Disk where
  cwd : Place
  listing : List (Place × Entry)

namespace Disk

/-- What stands at a place. The top is always a directory. -/
def at? (d : Disk) (p : Place) : Option Entry :=
  if p.isEmpty then some .directory else d.listing.lookup p

/-- Puts something at a place. -/
def put (d : Disk) (p : Place) (e : Entry) : Disk :=
  { d with listing := d.listing.filter (·.1 ≠ p) ++ [(p, e)] }

/-- The disk that holds nothing but its working directory. -/
def bare (cwd : Place) : Disk :=
  ⟨cwd, (List.range cwd.length).map fun n => (cwd.take (n + 1), .directory)⟩

/-! ### Places of paths -/

/-- The most bytes of a name. -/
def nameLimit : Nat := 255

/-- The most bytes of a path. -/
def pathLimit : Nat := 4095

/-- The most directories that are made in one go, each within the one before. -/
def depthLimit : Nat := 989

/-- Refuses a path that no disk takes. -/
def allow (path : Path) : Except FileError Unit :=
  if path.text.toList.contains '\x00' then .error .nullCharacter
  else if pathLimit < path.text.utf8ByteSize then .error .tooLong
  else .ok ()

/-- Goes from a place, which has to be a directory, to a name in it. Two dots lead up. -/
def step (d : Disk) (p : Place) (name : String) : Except FileError Place :=
  match d.at? p with
  | none => .error .missing
  | some (.file _) => .error .notDirectory
  | some .directory =>
    if name = ".." then .ok p.dropLast
    else if nameLimit < name.utf8ByteSize then .error .tooLong
    else .ok (p ++ [name])

/-- Where a path starts. -/
def origin (d : Disk) (path : Path) : Place := if path.root = "" then d.cwd else []

/-- The place of a path. Each name but the last has to lead to a directory. -/
def locate (d : Disk) (path : Path) : Except FileError Place := do
  allow path
  path.parts.foldlM d.step (d.origin path)

/-! ### Operations -/

/-- An operation on a disk. One that fails leaves what it has done until then. -/
abbrev OnDisk := EStateM FileError Disk

/-- Makes the directories that are missing along names from a place; `made` tells whether one has
been made already. A file on the way is no directory to look into; once directories are being
made, and at the end of the way, it stands where one would be made. -/
def makeAlong (p : Place) (made : Bool) : List String → OnDisk Unit
  | [] => return
  | name :: names => do
    let q ← ofExcept ((← get).step p name)
    match (← get).at? q with
    | some .directory => makeAlong q made names
    | some (.file _) => throw (if made || names.isEmpty then .taken else .notDirectory)
    | none =>
      if !made && depthLimit ≤ names.length then throw .tooDeep
      modify (·.put q .directory)
      makeAlong q true names

/-- Makes a directory and those above it. -/
def makeDirectories (path : Path) : OnDisk Unit := do
  ofExcept (allow path)
  makeAlong ((← get).origin path) false path.parts

/-- The disk with a directory and those above it. -/
def ensureDirectories (d : Disk) (path : Path) : Except FileError Disk :=
  match makeDirectories path d with
  | .ok _ d' => .ok d'
  | .error e _ => .error e

/-- Writes a text to a file, new or not, in an existing directory. -/
def writeText (path : Path) (text : String) : OnDisk Unit := do
  let p ← ofExcept ((← get).locate path)
  if ((← get).at? p).any Entry.isDirectory then throw .isDirectory
  modify (·.put p (.file text.toUTF8))

/-- Line ends as single newlines. -/
def plainLines : List Char → List Char
  | [] => []
  | c :: cs =>
    if c = '\r' then
      match cs with
      | '\n' :: ds => '\n' :: plainLines ds
      | ds => '\n' :: plainLines ds
    else c :: plainLines cs

/-- The text of a file. -/
def readText (d : Disk) (path : Path) : Except FileError String := do
  match d.at? (← d.locate path) with
  | none => throw .missing
  | some .directory => throw .isDirectory
  | some (.file content) =>
    match String.fromUTF8? content with
    | some s => return String.ofList (plainLines s.toList)
    | none => throw .undecodable

end Disk

end FloorPlan
