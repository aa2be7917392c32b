import Scaffold.Collection.Build
import Scaffold.Collection.Merge
import Scaffold.OpenApi.Document
import Scaffold.OpenApi.Paths
import Scaffold.OpenApi.Schemas
import Scaffold.Remote.Client
import Scaffold.Settings.Basic
import Scaffold.World.Files

/-!
# Documenting a module

The documentation of a module is its request collection, its folder in the shared collection and its
entries in the API document.  What people added to these files is kept.  The collection and the
document fail independently of each other, and their failures are reported, not raised.
-/

namespace Scaffold

/-- What documenting a module did. -/
structure DocumentationResult where
  className : Text
  collectionPath : Option Text := none
  documentPath : Option Text := none
  synced : Bool := false
  errors : List Text := []
  deriving DecidableEq, Repr

/-- Whether nothing failed. -/
def DocumentationResult.success (r : DocumentationResult) : Bool := r.errors.isEmpty

namespace Documentation

/-! ## The request collection of a module -/

/-- The file of a module's request collection. -/
def collectionFile (s : Settings) (n : Names) : Path :=
  s.collectionPath.child (n.folder ++ ".postman_collection.json")

/-- The items of an existing collection, if it has a list of them. -/
def existingItems? (current : Json) : Option (List Json) :=
  match current.get? "item" with
  | some (.arr items) => some items
  | _ => none

/-- A collection with the items of an existing file kept, or the collection itself where there is
none. -/
def mergeExisting (p : Path) (collection : Json) : Act Json := do
  match existingItems? (← Files.readDocument p) with
  | none => return collection
  | some items => do
    Act.say [⟨.info, .collection, "Merging with existing local collection: " ++ p.text⟩]
    let members ← Act.ofFit collection.copyMembers
    let generated ← Act.ofFit (collection.member? "item")
    let merged ← Act.ofFit (Collection.merge (generated.getD (.arr [])) (.arr items))
    Act.say merged.records
    return .obj (Json.Members.put "item" (.arr merged.items) members)

/-- The collection to write where a file exists; an unreadable file is overwritten. -/
def keptCollection (p : Path) (collection : Json) : Act Json := do
  match ← Act.attempt (mergeExisting p collection) with
  | .ok merged => return merged
  | .error f =>
    if f.isOs || f.isBadValue then
      Act.say [⟨.warning, .collection, "Could not parse existing Postman collection at " ++ p.text ++
        ", overwriting instead."⟩]
      return collection
    else throw f

/-- Writes the request collection of a module and returns its path. -/
def saveCollection (s : Settings) (n : Names) (collection : Json) : Act Path := do
  let p := collectionFile s n
  let existed ← Act.look fun d => d.isPresent p
  let final ← if existed then keptCollection p collection else pure collection
  let _ ← Files.writeDocument p final
  Act.say [⟨.info, .collection, "Postman collection " ++
    (if existed then "updated".toList else "created".toList) ++ ": " ++ p.text⟩]
  return p

/-! ## A copy of the shared collection -/

/-- Where a copy of the shared collection goes when no path is given. -/
def copyPath : Path := .ofText "postman/full_collection.postman_collection.json"

/-- Writes a copy of the shared collection. -/
def saveCopy (collection : Json) (p : Path) : Act Unit := do
  match ← Act.attempt (Files.writeDocument p (Remote.collectionBody collection)) with
  | .ok _ => Act.say [⟨.info, .collection, "Full Postman collection exported to: " ++ p.text⟩]
  | .error f =>
    if f.isOs then
      Act.say [⟨.error, .collection, "Error saving full Postman collection: " ++ f.message⟩]
    throw f

/-! ## The API document -/

/-- The document of an existing file, or a new one where the file holds none. -/
def existingDocument (p : Path) : Act Json := do
  match ← Act.attempt (Files.readDocument p) with
  | .ok (.obj members) => return .obj members
  | .ok _ =>
    Act.say [⟨.warning, .openApi, "Swagger file " ++ p.text ++
      " is not an object, creating new one"⟩]
    return OpenApi.defaultDocument
  | .error f =>
    if f.isOs || f.isBadValue then
      Act.say [⟨.warning, .openApi, "Could not parse existing swagger file, creating new one"⟩]
      return OpenApi.defaultDocument
    else throw f

/-- Writes the entries of a module into the API document and returns its path. -/
def saveDocument (s : Settings) (n : Names) (fields : List Field) : Act Path := do
  let p := s.documentPath
  let document ← if ← Act.look fun d => d.isPresent p then existingDocument p
    else pure OpenApi.defaultDocument
  let merged ← Act.ofFit
    (OpenApi.merge document (.obj (OpenApi.paths n)) (.obj (OpenApi.schemas n fields)))
  let _ ← Files.writeDocument p merged
  Act.say [⟨.info, .openApi, "Swagger documentation updated: " ++ p.text⟩]
  return p

/-! ## All documentation of a module -/

/-- The client of the settings. -/
def clientOf (s : Settings) : Act Client :=
  Act.ofExcept (Client.ofKey (s.apiKey.getD []) s.apiAddress)

/-- Replaces the folder of a module in the shared collection. -/
def sync (s : Settings) (n : Names) (collection : Json) (client : Option Client) : Act Unit := do
  Act.say [⟨.info, .documentation, "Syncing " ++ n.collectionFolder ++ " to Postman Cloud..."⟩]
  let client ← match client with
    | some c => pure c
    | none => clientOf s
  let _ ← client.updateFolder (s.collectionId.getD []) n collection

/-- Reports a failure. -/
def failed (r : DocumentationResult) (what : Text) (f : Failure) : Act DocumentationResult := do
  let message := "Error updating " ++ what ++ ": " ++ f.message
  Act.say [⟨.error, .documentation, message⟩]
  return { r with errors := r.errors ++ [message] }

/-- Writes the request collection and keeps the shared one up to date. -/
def updateCollection (s : Settings) (n : Names) (fields : List Field) (client : Option Client)
    (r : DocumentationResult) : Act DocumentationResult := do
  let collection := Collection.ofModule n fields s.apiPrefix
  match ← Act.attempt (saveCollection s n collection) with
  | .error f => failed r "Postman collection" f
  | .ok p =>
    let r := { r with collectionPath := some p.text }
    if s.isRemote then
      match ← Act.attempt (sync s n collection client) with
      | .error f => failed r "Postman collection" f
      | .ok () => return { r with synced := true }
    else return r

/-- Writes the entries in the API document. -/
def updateDocument (s : Settings) (n : Names) (fields : List Field) (r : DocumentationResult) :
    Act DocumentationResult := do
  match ← Act.attempt (saveDocument s n fields) with
  | .error f => failed r "Swagger documentation" f
  | .ok p => return { r with documentPath := some p.text }

/-- Brings the documentation of a module up to date. -/
def update (s : Settings) (n : Names) (fields : List Field) (client : Option Client) :
    Act DocumentationResult := do
  Act.say [⟨.info, .documentation, "Updating documentation for " ++ n.className ++ "..."⟩]
  let r : DocumentationResult := { className := n.className }
  let r ← if s.updateCollection then updateCollection s n fields client r else pure r
  let r ← if s.updateDocument then updateDocument s n fields r else pure r
  Act.say [⟨.info, .documentation, "Documentation update completed for " ++ n.className ++ "."⟩]
  return r

end Documentation

end Scaffold
