import Scaffold.Settings.Layer
import Scaffold.Settings.Raw

/-!
# Settings in the environment

Some settings may be given in variables, of the process or of an environment file.
-/

namespace Scaffold

/-- Variables with their values, if they have any. -/
abbrev Environment := List (Text × Option Text)

namespace Environment

/-- The variables that settings are taken from. -/
def settingNames : List (Text × Setting) :=
  [("POSTMAN_API_KEY", .apiKey), ("POSTMAN_COLLECTION_ID", .collectionId),
    ("POSTMAN_API_URL", .apiAddress)]

/-- The value of a variable that is not empty. -/
def given? (e : Environment) (name : Text) : Option Text :=
  match Table.find? name e with
  | some (some (c :: rest)) => some (c :: rest)
  | _ => none

/-- The layer of the environment: the variables of the process come before those of a file, and an
empty value is none. -/
def layer (process file : Environment) : Layer Raw :=
  settingNames.filterMap fun (name, s) =>
    ((given? process name).or (given? file name)).map fun t => (s, .plain (.str t))

end Environment

end Scaffold
