import Scaffold.Json.Access
import Scaffold.Json.Notation
import Scaffold.Log
import Scaffold.Text.Case

/-!
# Keeping what people added

A collection is edited by people, so generated requests are merged into it instead of replacing it:
the generated ones come first, and of the existing ones those stay whose names are not taken.  In
the shared collection every module has one folder, and the variables have to be of types that the
service accepts.
-/

namespace Scaffold.Collection

/-- The name of a generated item; an absent name counts as null. -/
def nameKey (item : Json) : Except Misfit Json := do
  let name ← item.member? "name"
  Json.asKey (name.getD .null)

/-- Whether an existing item is an object whose name is taken. -/
def isReplaced (taken : List Json) (item : Json) : Except Misfit Bool :=
  match item with
  | .obj members => do
    let name ← Json.asKey (Json.Members.get "name" members)
    return taken.any fun t => t.sameKey name
  | _ => .ok false

/-- The existing items that stay. -/
def manualItems (taken : List Json) : List Json → Except Misfit (List Json)
  | [] => .ok []
  | item :: rest => do
    let replaced ← isReplaced taken item
    let manual ← manualItems taken rest
    return if replaced then manual else item :: manual

/-- Generated items, and the existing items that stay. -/
structure Merged where
  generated : List Json
  manual : List Json

/-- All items of a merge, the generated ones first. -/
def Merged.items (m : Merged) : List Json := m.generated ++ m.manual

/-- Merges generated items with existing ones. -/
def merge (generated existing : Json) : Except Misfit Merged := do
  let new ← generated.sequence
  let taken ← new.mapM nameKey
  let old ← existing.sequence
  let manual ← manualItems taken old
  return ⟨new, manual⟩

/-- The record of items that stay. -/
def Merged.records (m : Merged) : List Log.Record :=
  if m.manual.isEmpty then []
  else
    let names := m.manual.filterMap fun item => match item with
      | .obj members => some (Json.Members.get "name" members).messageText
      | _ => none
    [⟨.info, .collection, "Preserving " ++ Text.ofNat m.manual.length ++ " manual endpoint(s): " ++
      Text.join ", " names⟩]

/-! ## Variables of the shared collection -/

/-- The types that the service accepts. -/
def variableTypes : List Text := ["string", "secret", "boolean", "number", "any"]

/-- A variable that the service accepts, made from one that may not be; without a key it is
dropped. -/
def acceptedVariable? : Json → Option Json
  | .obj members =>
    if (Json.Members.get "key" members).isTruthy then
      match Json.Members.find? "type" members with
      | some (.str t) =>
        if Text.lower t ∈ variableTypes then some (.obj members)
        else some (.obj (Json.Members.put "type" (.lit "string") members))
      | _ => some (.obj (Json.Members.put "type" (.lit "string") members))
    else none
  | _ => none

/-- The entries of a list of variables; anything but a list has none. -/
def variableEntries : Json → List Json
  | .arr items => items
  | _ => []

/-- Makes the variables of a collection acceptable; without any left the member is removed. -/
def acceptVariables (collection : Json.Members) : Json.Members :=
  match Json.Members.find? "variable" collection with
  | none | some .null => collection
  | some listed =>
    match (variableEntries listed).filterMap acceptedVariable? with
    | [] => Json.Members.erase "variable" collection
    | v :: vs => Json.Members.put "variable" (.arr (v :: vs)) collection

/-- The record of one variable whose type is replaced. -/
def variableRecords (entry : Json) : List Log.Record :=
  match entry with
  | .obj members =>
    let key := Json.Members.get "key" members
    let type := Json.Members.get "type" members
    let accepted := match type with
      | .str t => decide (Text.lower t ∈ variableTypes)
      | _ => false
    if key.isTruthy && !accepted then
      [⟨.debug, .remote, "Variable '" ++ key.messageText ++ "' has invalid/missing type '" ++
        type.messageText ++ "'; using 'string'."⟩]
    else []
  | _ => []

/-- The records of making variables acceptable. -/
def acceptRecords (collection : Json.Members) : List Log.Record :=
  match Json.Members.find? "variable" collection with
  | none | some .null =>
    [⟨.debug, .remote, "No variables found in retrieved collection."⟩]
  | some listed =>
    let entries := variableEntries listed
    entries.flatMap variableRecords ++
      if (entries.filterMap acceptedVariable?).isEmpty then
        [⟨.debug, .remote, "Removing empty/invalid variable array."⟩]
      else []

/-! ## The folder of a module -/

/-- The entries of a collection; anything but a list counts as none. -/
def entries (collection : Json.Members) : List Json :=
  match Json.Members.find? "item" collection with
  | some (.arr items) => items
  | _ => []

/-- Whether an entry is the folder with a name. -/
def isFolder (name : Text) : Json → Bool
  | .obj members =>
    match Json.Members.find? "name" members with
    | some (.str n) => n == name
    | _ => false
  | _ => false

/-- Entries after the items of a folder were replaced: all entries, what was merged into an existing
folder, and whether there was one. -/
structure Replaced where
  entries : List Json
  merged? : Option Merged

/-- Puts items into the first folder with a name, or into a new folder at the end. -/
def replaceIn (name : Text) (items : List Json) : List Json → Except Misfit Replaced
  | [] => .ok ⟨[.object [("name", .str name), ("item", .arr items)]], none⟩
  | entry :: rest =>
    match entry, isFolder name entry with
    | .obj members, true => do
      let merged ← merge (.arr items) (Json.orEmptyList (Json.Members.find? "item" members))
      return ⟨.obj (Json.Members.put "item" (.arr merged.items) members) :: rest, some merged⟩
    | _, _ => do
      let replaced ← replaceIn name items rest
      return { replaced with entries := entry :: replaced.entries }

/-- A collection after the items of a folder were replaced. -/
structure FolderUpdate where
  collection : Json.Members
  merged? : Option Merged

/-- Whether the folder existed before. -/
def FolderUpdate.updated (u : FolderUpdate) : Bool := u.merged?.isSome

/-- Puts items into the folder with a name. -/
def replaceFolder (collection : Json.Members) (name : Text) (items : List Json) :
    Except Misfit FolderUpdate := do
  let replaced ← replaceIn name items (entries collection)
  return ⟨Json.Members.put "item" (.arr replaced.entries) collection, replaced.merged?⟩

/-- The record made before the items of a folder are replaced. -/
def folderRecord (collection : Json.Members) (name : Text) : Log.Record :=
  if (entries collection).any (isFolder name) then
    ⟨.info, .remote, "Updating existing folder: " ++ name⟩
  else ⟨.info, .remote, "Adding new folder: " ++ name⟩

end Scaffold.Collection
