import Scaffold.Settings.Basic
import Scaffold.Settings.Environment
import Scaffold.World.Files

/-!
# Loading settings

The settings of a run come from four layers: a section of the package description, a settings file
that was asked for, the environment, and what was given for this run.  Every layer is written over
those before it, and the values are checked at the end.

A broken package description counts as an empty layer; a settings file has to be there and has to
hold settings.

Two formats are those of readers from outside, which are a parameter of loading (`Readers`).
-/

namespace Scaffold

/-- The layers of one run, from the weakest to the strongest. -/
structure Sources where
  package : Layer Raw
  file : Layer Raw
  environment : Layer Raw
  given : Layer Raw

/-- The raw value of every setting that some layer sets. -/
def Sources.merged (s : Sources) : Layer Raw :=
  Layer.merge [s.package, s.file, s.environment, s.given]

/-- What the text of a settings file stands for.  The keys of a mapping need not be texts; they count by
the texts they are shown as. -/
inductive Loaded where
  | nothing
  | mapping (members : Raw.Members)
  | other (kind : Text)

/-- A document as settings. -/
def Loaded.ofDocument : Json → Loaded
  | .null => nothing
  | .obj members => mapping (Raw.ofMembers members)
  | v => other v.kindName

/-- The readers of formats that come from outside: of YAML, which may refuse a text, and of environment
files, whose values may refer to the variables of the process. -/
structure Readers where
  yaml : Text → Option Loaded
  environmentFile : Environment → Text → Environment

namespace Settings

/-! ## The package description -/

/-- The member of the package description that holds settings. -/
def packageSection : Text := "moduleGenerator"

/-- The settings in a package description; one without a section has none. -/
def packageMembers (description : Json) : Json.Members :=
  match description.get? packageSection with
  | some (.obj members) => members
  | _ => []

/-- A layer of members, whose unknown keys are reported. -/
def readLayer (source : Text) (members : Raw.Members) : Act (Layer Raw) := do
  Act.say (Layer.records source members)
  return Layer.ofMembers members

/-- The layer of the package description. -/
def packageLayer (base : Path) : Act (Layer Raw) := do
  let path := base.child "package.json"
  if ← Act.look fun d => d.isFile path then
    match ← Act.attempt (Files.readDocument path) with
    | .ok description => readLayer "package.json" (Raw.ofMembers (packageMembers description))
    | .error f =>
      if f.isOs || f.isBadValue then
        Act.say [⟨.warning, .settings,
          "Could not load configuration from package.json, using defaults"⟩]
        return []
      else throw f
  else return []

/-- What is given for one run, less what is null. -/
def givenMembers (members : Raw.Members) : Raw.Members :=
  members.filter fun m => match m.2 with
    | .plain .null => false
    | _ => true

end Settings

namespace Readers

variable (readers : Readers)

/-! ## Settings files -/

/-- What a file stands for; its name decides how it is read. -/
def loaded (path : Path) (t : Text) : Except Failure Loaded :=
  if Text.lower path.suffix = ".json".toList then (Files.document path t).map Loaded.ofDocument
  else
    match readers.yaml t with
    | none => .error (.settingsSyntax path.text)
    | some l => .ok l

/-- The settings in the text of a file; an empty file sets nothing. -/
def fileMembers (path : Path) (t : Text) : Except Failure Raw.Members :=
  match readers.loaded path t with
  | .error f => .error f
  | .ok .nothing => .ok []
  | .ok (.mapping members) => .ok members
  | .ok (.other kind) => .error (.settingsNotMapping path.text kind)

/-- The layer of a settings file. -/
def fileLayer (path : Path) : Act (Layer Raw) := do
  if ← Act.look fun d => d.isFile path then
    let t ← Files.read path
    Settings.readLayer path.text (← Act.ofExcept (readers.fileMembers path t))
  else throw (.noSettingsFile path.text)

/-- The layer of the settings file that was asked for, if one was. -/
def askedLayer (base : Path) (file : Option Path) : Act (Layer Raw) :=
  match file with
  | none => return []
  | some file => do
    let path := base.join file
    match ← Act.attempt (readers.fileLayer path) with
    | .ok l =>
      Act.say [⟨.info, .settings, "Loaded configuration from " ++ path.text⟩]
      return l
    | .error (.noSettingsFile p) => throw (.settingsFileMissing p)
    | .error f => throw f

/-! ## The environment -/

/-- The layer of the process environment and an environment file. -/
def environmentLayer (process : Environment) (path : Path) : Act (Layer Raw) := do
  if ← Act.look fun d => d.isFile path then
    let file := readers.environmentFile process (← Files.read path)
    Act.say [⟨.debug, .settings, "Loaded environment file " ++ path.text⟩]
    return Environment.layer process file
  else return Environment.layer process []

/-! ## All together -/

/-- Reads all layers. -/
def sources (base : Path) (file : Option Path) (given : Raw.Members) (environmentFile : Option Path)
    (process : Environment) : Act Sources := do
  let package ← Settings.packageLayer base
  let file ← readers.askedLayer base file
  let environment ← readers.environmentLayer process (environmentFile.getD (base.child ".env"))
  let given ← Settings.readLayer "overrides" (Settings.givenMembers given)
  return ⟨package, file, environment, given⟩

/-- Loads the settings of a run. -/
def load (base : Path) (file : Option Path) (given : Raw.Members) (environmentFile : Option Path)
    (process : Environment) : Act Settings := do
  let s ← readers.sources base file given environmentFile process
  match Settings.ofLayer base s.merged with
  | .error issues => throw (.settings issues)
  | .ok settings =>
    Act.say [⟨.debug, .settings, "Effective configuration: " ++ settings.shown⟩]
    return settings

end Readers

end Scaffold
