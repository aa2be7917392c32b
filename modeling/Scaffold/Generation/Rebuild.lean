import Scaffold.Generation.Documentation
import Scaffold.Recovery.Fields

/-!
# Documenting modules that exist

The documentation of modules on the disk is rebuilt from the fields that their interface and model
files describe.  The modules are taken in order of their folder names, and one that cannot be read
does not keep the others from being documented.
-/

namespace Scaffold.Rebuild

/-- The file of a kind in the folder of a module. -/
def fileIn (folder : Path) (kind : Text) : Path :=
  folder.child (folder.name ++ '.' :: kind ++ ".ts")

/-- The fields that the files of a module describe; there may be no model file. -/
def fieldsIn (folder : Path) : Act (List Field) := do
  let interface ← Files.read (fileIn folder "interface")
  let modelFile := fileIn folder "model"
  let model ← if ← Act.look fun d => d.isFile modelFile then Files.read modelFile else pure []
  let fields := Recovery.fields interface model
  if (Recovery.mainInterface? (Recovery.interfaces (Recovery.blocks interface))).isSome then
    Act.say [⟨.debug, .documentation, "Reverse-parsed " ++ Text.ofNat fields.length ++
      " field(s) from " ++ folder.text⟩]
  return fields

/-- The names of a module folder. -/
def namesOf (folder : Path) : Act Names :=
  Act.ofExcept (match Names.ofRaw? folder.name with
    | some n => .ok n
    | none => .error .noModuleName)

/-- Rebuilds the documentation of one module, and tells whether that succeeded. -/
def rebuild (s : Settings) (client : Option Client) (folder : Path) : Act Bool := do
  let interface := fileIn folder "interface"
  if ← Act.look fun d => d.isFile interface then
    Act.say [⟨.info, .documentation, "Processing module: " ++ folder.name⟩]
    let fields ← fieldsIn folder
    if fields.isEmpty then
      Act.say [⟨.warning, .documentation, "No fields found in " ++ folder.name ++ " interface"⟩]
      return false
    else
      Act.say [⟨.info, .documentation, "Extracted " ++ Text.ofNat fields.length ++ " field(s): " ++
        Text.join ", " (fields.map Field.name)⟩]
      return (← Documentation.update s (← namesOf folder) fields client).success
  else
    Act.say [⟨.warning, .documentation, "Interface file not found for module: " ++ folder.name⟩]
    return false

/-- Rebuilds the documentation of several modules, and counts those that succeeded. -/
def rebuildAll (s : Settings) (client : Option Client) : List Path → Act Nat
  | [] => return 0
  | folder :: rest => do
    let done ← match ← Act.attempt (rebuild s client folder) with
      | .ok done => pure done
      | .error f =>
        Act.say [⟨.error, .documentation, "Error processing module " ++ folder.name ++ ": " ++
          f.message⟩]
        pure false
    return (if done then 1 else 0) + (← rebuildAll s client rest)

/-- The folders among which only some are asked for, in any case; without targets all are. -/
def chosen (targets : List Text) (folders : List Path) : List Path :=
  if targets.isEmpty then folders
  else folders.filter fun f => Text.lower f.name ∈ targets.map Text.lower

/-- The client that is shared by all modules. -/
def sharedClient (s : Settings) (client : Option Client) : Act (Option Client) := do
  if client.isNone && s.updateCollection && s.isRemote then return some (← Documentation.clientOf s)
  else return client

/-- Rebuilds the documentation of the modules on the disk, or of some of them, and counts those that
succeeded. -/
def run (s : Settings) (targets : List Text) (client : Option Client) : Act Nat := do
  let path := s.modulesPath
  if ← Act.look fun d => d.isFolder path then
    Act.say [⟨.info, .documentation, "Scanning existing modules for documentation updates..."⟩]
    let folders := chosen targets (← Act.look fun d => d.subfolders path)
    if !targets.isEmpty && folders.isEmpty then
      Act.say [⟨.warning, .documentation, "None of the specified modules were found: " ++
        Text.join ", " targets⟩]
      return 0
    else
      let client ← sharedClient s client
      let updated ← rebuildAll s client folders
      Act.say [⟨.info, .documentation, "Updated documentation for " ++ Text.ofNat updated ++
        " module(s)"⟩]
      return updated
  else
    Act.say [⟨.error, .documentation, "Modules directory not found: " ++ path.text⟩]
    return 0

end Scaffold.Rebuild
