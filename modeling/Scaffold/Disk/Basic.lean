import Scaffold.Disk.Path
import Scaffold.Failure
import Scaffold.Table

/-!
# The disk

A disk is a table of entries by location, where a location is the list of names from the root down.
The root is a folder without an entry.  A path is followed name by name: every name but the last one
has to lead to a folder, and the last one may be free, which is where a new entry can go.

Operations that only look return a result.  Operations that change the disk return it as well, and
each of them takes the next planned outcome of the disk: a disk can be told which of its operations
will fail, so that a statement about all failures is a statement about all plans.

There are neither links nor permissions, and nothing else changes the disk.
-/

namespace Scaffold

/-- The names from the root to an entry. -/
abbrev Location := List Text

/-- What a disk holds at a location. -/
inductive Entry where
  | file (content : Bytes)
  | folder
  deriving DecidableEq, Repr

/-- A disk with its working folder.  `plan` says for each coming operation which failure, if any,
strikes it; after its end none does. -/
structure Disk where
  entries : List (Location × Entry)
  home : Location
  plan : List (Option Errno) := []

namespace Disk

/-- The entry at a location. -/
def find? (d : Disk) : Location → Option Entry
  | [] => some .folder
  | part :: parts => Table.find? (part :: parts) d.entries

/-- The disk with an entry at a location. -/
def put (d : Disk) (location : Location) (e : Entry) : Disk :=
  { d with entries := Table.put location e d.entries }

/-- The disk without the entry at a location. -/
def erase (d : Disk) (location : Location) : Disk :=
  { d with entries := Table.erase location d.entries }

/-- An entry elsewhere is not touched by writing one. -/
theorem find?_put_of_ne (d : Disk) (e : Entry) {written location : Location}
    (h : written ≠ location) : (d.put written e).find? location = d.find? location := by
  cases location with
  | nil => rfl
  | cons part parts => simp [find?, put, Table.find?_put, h]

/-- A written entry is found. -/
theorem find?_put_self (d : Disk) (e : Entry) {location : Location} (h : location ≠ []) :
    (d.put location e).find? location = some e := by
  cases location with
  | nil => exact absurd rfl h
  | cons part parts => simp [find?, put, Table.find?_put]

/-! ## Following paths -/

/-- Where a path leads: a location, and what is there. -/
structure Place where
  location : Location
  found? : Option Entry

/-- The greatest number of bytes in a name. -/
def nameLimit : Nat := 255

/-- The number of bytes from which on a path is too long as a whole. -/
def pathLimit : Nat := 4096

/-- The number of bytes of a text. -/
def byteLength (t : Text) : Nat := (Utf8.encode t).length

/-- Follows names from a folder. -/
def follow (d : Disk) (location : Location) : List Text → Except Errno Place
  | [] => .ok ⟨location, d.find? location⟩
  | part :: rest =>
    -- two dots at the root stay at the root
    if part = ['.', '.'] then follow d location.dropLast rest
    else if nameLimit < byteLength part then .error .nameTooLong
    else
      let next := location ++ [part]
      -- only the last name may be missing, or that of a file
      match d.find? next, rest with
      | found, [] => .ok ⟨next, found⟩
      | some .folder, more :: rest => follow d next (more :: rest)
      | some (.file _), _ :: _ => .error .notDirectory
      | none, _ :: _ => .error .noEntry

/-- The folder that a path starts from. -/
def start (d : Disk) (p : Path) : Location :=
  match p.anchor with
  | .here => d.home
  | _ => []

/-- The failure of an operation on a path. -/
def failure (e : Errno) (p : Path) : Failure := .os ⟨e, some p.text, none⟩

/-- Where a path leads on a disk. -/
def place (d : Disk) (p : Path) : Except Failure Place :=
  if p.hasTerminator then .error .nullInPath
  else if pathLimit ≤ byteLength p.text then .error (failure .nameTooLong p)
  else match d.follow (d.start p) p.parts with
    | .ok place => .ok place
    | .error e => .error (failure e p)

/-- The entry that a path leads to. -/
def entry (d : Disk) (p : Path) : Except Failure Entry := do
  match (← d.place p).found? with
  | some e => return e
  | none => throw (failure .noEntry p)

/-- Whether a path leads to an entry that passes a test.  A path that leads nowhere does not; that
a name is too long is not an answer. -/
def holds (d : Disk) (p : Path) (test : Entry → Bool) : Except Failure Bool :=
  match d.entry p with
  | .ok e => .ok (test e)
  | .error (.os e) =>
    if e.errno = .noEntry ∨ e.errno = .notDirectory then .ok false else .error (.os e)
  | .error .nullInPath => .ok false
  | .error f => .error f

/-- Whether a path leads to an entry. -/
def isPresent (d : Disk) (p : Path) : Except Failure Bool := d.holds p fun _ => true

/-- Whether a path leads to a file. -/
def isFile (d : Disk) (p : Path) : Except Failure Bool := d.holds p fun e => e != .folder

/-- Whether a path leads to a folder. -/
def isFolder (d : Disk) (p : Path) : Except Failure Bool := d.holds p fun e => e == .folder

/-- The content of a file. -/
def read (d : Disk) (p : Path) : Except Failure Bytes := do
  match ← d.entry p with
  | .file content => return content
  | .folder => throw (failure .isDirectory p)

/-- The text of a file, with every line end as a newline. -/
def readText (d : Disk) (p : Path) : Except Failure Text := do
  match Utf8.decode (← d.read p) with
  | .ok t => return Text.unifyNewlines t
  | .error e => throw (.encoding e)

/-- The names in the folder at a location. -/
def namesIn (d : Disk) (location : Location) : List Text :=
  d.entries.filterMap fun e =>
    if e.1.length = location.length + 1 ∧ e.1.dropLast = location then e.1.getLast? else none

/-- The paths of the folders in a folder, in order of their names. -/
def subfolders (d : Disk) (p : Path) : Except Failure (List Path) := do
  let place ← d.place p
  let names := (d.namesIn place.location).filter fun n =>
    d.find? (place.location ++ [n]) == some .folder
  return (names.mergeSort Text.notAfter).map fun n => ⟨p.anchor, p.parts ++ [n]⟩

/-! ## Changes -/

/-- The planned outcome of the coming operation, and the disk after it was taken. -/
def planned (d : Disk) : Option Errno × Disk :=
  match d.plan with
  | [] => (none, d)
  | outcome :: rest => (outcome, { d with plan := rest })

/-- Makes a folder whose parent exists. -/
def makeFolder (p : Path) (d : Disk) : Except Failure Unit × Disk :=
  match d.planned with
  | (some e, d) => (.error (failure e p), d)
  | (none, d) =>
    match d.place p with
    | .error f => (.error f, d)
    | .ok ⟨_, some _⟩ => (.error (failure .fileExists p), d)
    | .ok ⟨location, none⟩ => (.ok (), d.put location .folder)

/-- Accepts a failure to make a folder where there is one. -/
def unlessFolder (p : Path) (f : Failure) (d : Disk) : Except Failure Unit × Disk :=
  match f with
  | .os _ =>
    match d.isFolder p with
    | .ok true => (.ok (), d)
    | .ok false => (.error f, d)
    | .error f => (.error f, d)
  | _ => (.error f, d)

/-- Makes a folder, or keeps the one that is there. -/
def keepFolder (p : Path) (d : Disk) : Except Failure Unit × Disk :=
  match d.makeFolder p with
  | (.ok (), d) => (.ok (), d)
  | (.error f, d) => if f.isNoEntry then (.error f, d) else d.unlessFolder p f

/-- Makes a folder and the folders above it, given its parts from the last to the first. -/
def makeFoldersUp (anchor : Anchor) : List Text → Disk → Except Failure Unit × Disk
  | [], d => d.keepFolder ⟨anchor, []⟩
  | part :: above, d =>
    let p : Path := ⟨anchor, (part :: above).reverse⟩
    match d.makeFolder p with
    | (.ok (), d) => (.ok (), d)
    | (.error f, d) =>
      if f.isNoEntry then
        -- a folder above is missing; it is made, and then this one
        match makeFoldersUp anchor above d with
        | (.ok (), d) => d.keepFolder p
        | failed => failed
      else d.unlessFolder p f

/-- Makes a folder and the folders above it, where they are missing. -/
def makeFolders (p : Path) (d : Disk) : Except Failure Unit × Disk :=
  d.makeFoldersUp p.anchor p.parts.reverse

/-- The eight characters that make a temporary name unique. -/
def uniquePart : Text := List.replicate 8 'X'

/-- The temporary file beside a file. -/
def temporary (d : Disk) (p : Path) : Path :=
  -- absolute, since the file may be named as seen from the working folder
  let folder := p.parent.absolute d.home
  { folder with parts := folder.parts ++ ['.' :: p.name ++ '.' :: uniquePart ++ ".tmp"] }

/-- Creates an empty file where there is none, and returns where it is. -/
def createNew (p : Path) (d : Disk) : Except Failure Location × Disk :=
  match d.planned with
  | (some e, d) => (.error (failure e p), d)
  | (none, d) =>
    match d.place p with
    | .error f => (.error f, d)
    | .ok ⟨_, some _⟩ => (.error (failure .fileExists p), d)
    | .ok ⟨location, none⟩ => (.ok location, d.put location (.file []))

/-- Writes the content of the file at a location. -/
def fill (location : Location) (content : Bytes) (d : Disk) : Except Failure Unit × Disk :=
  match d.planned with
  | (some e, d) => (.error (.os ⟨e, none, none⟩), d)
  | (none, d) => (.ok (), d.put location (.file content))

/-- Moves the file at a location to a path; a file that is there is replaced. -/
def moveTo (location : Location) (temp p : Path) (d : Disk) : Except Failure Unit × Disk :=
  -- the failure of a move names both paths
  let failed (e : Errno) : Failure := .os ⟨e, some temp.text, some p.text⟩
  match d.planned with
  | (some e, d) => (.error (failed e), d)
  | (none, d) =>
    match d.place p with
    | .error (.os e) => (.error (failed e.errno), d)
    | .error f => (.error f, d)
    | .ok ⟨_, some .folder⟩ => (.error (failed .isDirectory), d)
    | .ok ⟨target, _⟩ =>
      match d.find? location with
      | some e => (.ok (), (d.erase location).put target e)
      | none => (.error (failed .noEntry), d)

/-- Writes a file through a temporary one beside it, which a failure removes again: the file has
all of its new content or is as it was. -/
def writeAtomic (p : Path) (content : Bytes) (d : Disk) : Except Failure Unit × Disk :=
  let temp := d.temporary p
  match d.createNew temp with
  | (.error f, d) => (.error f, d)
  | (.ok location, d) =>
    match d.fill location content with
    | (.error f, d) => (.error f, d.erase location)
    | (.ok (), d) =>
      match d.moveTo location temp p with
      | (.error f, d) => (.error f, d.erase location)
      | (.ok (), d) => (.ok (), d)

/-- Writes a file in place. -/
def writePlain (p : Path) (content : Bytes) (d : Disk) : Except Failure Unit × Disk :=
  match d.planned with
  | (some e, d) => (.error (failure e p), d)
  | (none, d) =>
    match d.place p with
    | .error f => (.error f, d)
    | .ok ⟨_, some .folder⟩ => (.error (failure .isDirectory p), d)
    | .ok ⟨location, _⟩ => (.ok (), d.put location (.file content))

end Disk

end Scaffold
