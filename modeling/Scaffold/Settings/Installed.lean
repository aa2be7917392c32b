import Scaffold.Settings.EnvironmentFile
import Scaffold.Settings.Load
import Scaffold.Yaml.Reader

/-!
# The readers of the program

Loading settings with readers of the program's own, which cover the part of each format that settings are
written in.
-/

namespace Scaffold

/-- The readers of this program. -/
def Readers.installed : Readers where
  yaml t := (Yaml.read t).map Yaml.Node.loaded
  environmentFile := EnvironmentFile.read

namespace Settings

/-- The layer of a settings file, as far as its values are those of documents. -/
def fileLayer (path : Path) : Act (Layer Json) := do
  let l ← Readers.installed.fileLayer path
  return l.filterMap fun (s, v) => v.plain?.map fun v => (s, v)

/-- Loads the settings of a run. -/
def load (base : Path) (file : Option Path) (given : Json.Members) (environmentFile : Option Path)
    (process : Environment) : Act Settings :=
  Readers.installed.load base file (Raw.ofMembers given) environmentFile process

end Settings

end Scaffold
