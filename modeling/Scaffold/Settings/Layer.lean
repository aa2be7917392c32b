import Scaffold.Log
import Scaffold.Table
import Scaffold.Text.Case

/-!
# Layers of settings

Settings come from several places.  Each place gives a layer, a table from settings to values;
later layers are written over earlier ones.  A key may be spelled in camel case or with underscores,
and keys that name no setting are left out with a warning.
-/

namespace Scaffold

/-- What can be set. -/
inductive Setting where
  | modulesFolder
  | routerFile
  | helpersFolder
  | apiPrefix
  | collectionFolder
  | documentFile
  | updateCollection
  | updateDocument
  | apiKey
  | collectionId
  | apiAddress
  | timeout
  deriving DecidableEq, Repr

namespace Setting

/-- All settings, in the order in which they are checked. -/
def all : List Setting :=
  [modulesFolder, routerFile, helpersFolder, apiPrefix, collectionFolder, documentFile,
    updateCollection, updateDocument, apiKey, collectionId, apiAddress, timeout]

/-- The key of a setting. -/
def name : Setting → Text
  | modulesFolder => "modules_dir"
  | routerFile => "routes_file"
  | helpersFolder => "helpers_dir"
  | apiPrefix => "api_prefix"
  | collectionFolder => "postman_dir"
  | documentFile => "swagger_file"
  | updateCollection => "update_postman"
  | updateDocument => "update_swagger"
  | apiKey => "postman_api_key"
  | collectionId => "postman_collection_id"
  | apiAddress => "postman_api_url"
  | timeout => "request_timeout"

theorem mem_all (s : Setting) : s ∈ all := by cases s <;> decide

/-- The setting with a key. -/
def ofName? (t : Text) : Option Setting := all.find? fun s => s.name = t

theorem ofName?_name (s : Setting) : ofName? s.name = some s := by cases s <;> decide

theorem name_injective {s t : Setting} (h : s.name = t.name) : s = t :=
  Option.some.inj ((ofName?_name s).symm.trans (h ▸ ofName?_name t))

/-- Puts an underscore before every capital that follows a small letter or a digit; `before` is the
preceding character. -/
def separateWords (before : Option Char) : Text → Text
  | [] => []
  | c :: rest =>
    let starts := Text.isAsciiUpper c &&
      before.any fun b => Text.isAsciiLower b || Text.isAsciiDigit b
    (if starts then ['_', c] else [c]) ++ separateWords (some c) rest

/-- A key in small letters with underscores. -/
def snakeKey (key : Text) : Text := Text.lower (separateWords none key)

/-- The setting that a key in either spelling names. -/
def ofKey? (key : Text) : Option Setting := ofName? (snakeKey key)

end Setting

/-- The values that one place gives to settings. -/
abbrev Layer (α : Type) := List (Setting × α)

namespace Layer

variable {α : Type}

/-- The layer of keys with values: of several keys for one setting the last one counts. -/
def ofMembers (members : List (Text × α)) : Layer α :=
  Table.ofEntries (members.filterMap fun (key, value) => (Setting.ofKey? key).map fun s => (s, value))

/-- The warnings about keys that name no setting. -/
def records (source : Text) (members : List (Text × α)) : List Log.Record :=
  (members.filter fun m => (Setting.ofKey? m.1).isNone).map fun m =>
    ⟨.warning, .settings, "Ignoring unknown setting '" ++ m.1 ++ "' in " ++ source ++ "."⟩

/-- A layer with keys as they are written out. -/
def members (l : Layer α) : List (Text × α) := l.map fun (s, value) => (s.name, value)

/-- All layers as one, each written over those before it. -/
def merge (layers : List (Layer α)) : Layer α := layers.foldl Table.overlay []

end Layer

end Scaffold
