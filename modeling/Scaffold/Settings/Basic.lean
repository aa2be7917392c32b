import Scaffold.Disk.Path
import Scaffold.Settings.Layer
import Scaffold.Settings.Raw
import Scaffold.Text.Blank

/-!
# Settings

The settings of one run, after every raw value was checked.  Relative paths are seen from the base
folder.
-/

namespace Scaffold

/-- All settings of a run. -/
structure Settings where
  base : Path
  modulesFolder : Text := "src/app/modules"
  routerFile : Text := "src/routes/index.ts"
  helpersFolder : Text := "src/helpers"
  apiPrefix : Text := "/api/v1"
  collectionFolder : Text := "postman"
  documentFile : Text := "swagger.json"
  updateCollection : Bool := true
  updateDocument : Bool := true
  apiKey : Option Text := none
  collectionId : Option Text := none
  apiAddress : Text := "https://api.getpostman.com"
  timeout : Binary64 := .ofInt 30

namespace Settings

/-- A prefix of request paths: without blanks around it and slashes at its end, and with a slash in
front unless it is empty. -/
def normalPrefix (t : Text) : Text :=
  match Text.dropRightWhile (· == '/') (Text.trim t) with
  | [] => []
  | '/' :: rest => '/' :: rest
  | c :: rest => '/' :: c :: rest

/-- Changes one setting to a raw value. -/
def set (s : Settings) (key : Setting) (v : Raw) : Except Complaint Settings :=
  match key with
  | .modulesFolder => v.nonemptyText.map fun t => { s with modulesFolder := t }
  | .routerFile => v.nonemptyText.map fun t => { s with routerFile := t }
  | .helpersFolder => v.nonemptyText.map fun t => { s with helpersFolder := t }
  | .apiPrefix => v.text.map fun t => { s with apiPrefix := normalPrefix t }
  | .collectionFolder => v.nonemptyText.map fun t => { s with collectionFolder := t }
  | .documentFile => v.nonemptyText.map fun t => { s with documentFile := t }
  | .updateCollection => v.boolean.map fun b => { s with updateCollection := b }
  | .updateDocument => v.boolean.map fun b => { s with updateDocument := b }
  | .apiKey => v.optionalText.map fun t => { s with apiKey := t }
  | .collectionId => v.optionalText.map fun t => { s with collectionId := t }
  | .apiAddress => v.text.map fun t => { s with apiAddress := t }
  | .timeout => v.positiveNumber.map fun x => { s with timeout := x }

/-- Changes those of some settings that a layer sets, and collects what is wrong with values. -/
def setAll (l : Layer Raw) (s : Settings) : List Setting → Settings × List Issue
  | [] => (s, [])
  | key :: keys =>
    match Table.find? key l with
    | none => setAll l s keys
    | some v =>
      match s.set key v with
      | .ok s => setAll l s keys
      | .error c =>
        let (s, issues) := setAll l s keys
        (s, ⟨[.key key.name], c⟩ :: issues)

/-- The settings of a layer, with defaults for the rest. -/
def ofLayer (base : Path) (l : Layer Raw) : Except (List Issue) Settings :=
  match setAll l { base } Setting.all with
  | (s, []) => .ok s
  | (_, issues) => .error issues

/-- The settings of members whose keys have to be the exact ones. -/
def ofMembers (base : Path) (members : Json.Members) : Except (List Issue) Settings :=
  let l : Layer Raw := members.filterMap fun (key, v) => (Setting.ofName? key).map fun s => (s, .plain v)
  match setAll l { base } Setting.all, Check.unknownNames (Setting.all.map Setting.name) members with
  | (s, []), [] => .ok s
  | (_, issues), unknown => .error (issues ++ unknown)

/-- The key of the base folder. -/
def baseName : Text := "base_dir"

/-- Changes the setting with an exact key. -/
def assign (s : Settings) (name : Text) (v : Json) : Except (List Issue) Settings :=
  let refused (c : Complaint) : List Issue := [⟨[.key name], c⟩]
  if name = baseName then
    ((Check.path v).mapError refused).map fun t => { s with base := Path.ofText t }
  else match Setting.ofName? name with
    | none => .error (refused .unknownAttribute)
    | some key => (s.set key (.plain v)).mapError refused

/-! ## What follows from the settings -/

/-- The folder of all modules. -/
def modulesPath (s : Settings) : Path := s.base.child s.modulesFolder

/-- The router file. -/
def routerPath (s : Settings) : Path := s.base.child s.routerFile

/-- The folder of shared helpers. -/
def helpersPath (s : Settings) : Path := s.base.child s.helpersFolder

/-- The folder of request collections. -/
def collectionPath (s : Settings) : Path := s.base.child s.collectionFolder

/-- The file of the API document. -/
def documentPath (s : Settings) : Path := s.base.child s.documentFile

/-- Whether a text is set and not empty. -/
def isGiven (t : Option Text) : Bool := t.any fun t => !t.isEmpty

/-- Whether the shared collection is kept up to date: a key and a collection are given. -/
def isRemote (s : Settings) : Bool := isGiven s.apiKey && isGiven s.collectionId

/-- The settings in a message, without the key. -/
def shown (s : Settings) : Text :=
  "<GeneratorConfig base=" ++ s.base.text ++ " modules=" ++ s.modulesFolder ++ " routes=" ++
    s.routerFile ++ " remote=" ++ (if s.isRemote then ['o', 'n'] else ['o', 'f', 'f']) ++ ['>']

end Settings

end Scaffold
