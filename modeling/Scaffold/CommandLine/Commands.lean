import Scaffold.CommandLine.Grammar
import Scaffold.Disk.Path
import Scaffold.Json.Basic
import Scaffold.Log
import Scaffold.Settings.Layer

/-!
# Commands

The three commands and their options.  A command line without a command generates a module, so the
word for that is put in front of the first argument that is no option.
-/

namespace Scaffold.CommandLine

/-! ## Options -/

/-- Shows how the program is used. -/
def help : Opt := ⟨["-h", "--help"], false⟩

/-- Shows the version. -/
def version : Opt := ⟨["--version"], false⟩

/-- Shows more records, and all of them when given twice. -/
def verbose : Opt := ⟨["-v", "--verbose"], false⟩

/-- Shows errors only. -/
def quiet : Opt := ⟨["-q", "--quiet"], false⟩

/-- Names a settings file. -/
def configFile : Opt := ⟨["-c", "--config"], true⟩

/-- Names the folder of all modules. -/
def modulesFolder : Opt := ⟨["--modules-dir"], true⟩

/-- Leaves the request collection alone. -/
def noCollection : Opt := ⟨["--no-postman"], false⟩

/-- Leaves the API document alone. -/
def noDocument : Opt := ⟨["--no-swagger"], false⟩

/-- Names the folder of request collections. -/
def collectionFolder : Opt := ⟨["--postman-dir"], true⟩

/-- Names the file of the API document. -/
def documentFile : Opt := ⟨["--swagger-file"], true⟩

/-- Gives the prefix of request paths. -/
def apiPrefix : Opt := ⟨["--api-prefix"], true⟩

/-- Names the router file. -/
def routerFile : Opt := ⟨["--routes-file"], true⟩

/-- Refuses tokens that are no fields. -/
def strict : Opt := ⟨["--strict"], false⟩

/-- Names the file for the shared collection. -/
def output : Opt := ⟨["-o", "--output"], true⟩

/-- Names the shared collection. -/
def collectionId : Opt := ⟨["--collection-id"], true⟩

/-- Options that end the reading of arguments. -/
def stops (o : Opt) : Bool := o = help || o = version

/-- Options of the commands that document modules. -/
def documentationOpts : List Opt :=
  [configFile, modulesFolder, noCollection, noDocument, collectionFolder, documentFile, apiPrefix]

/-! ## Grammars -/

/-- The commands. -/
inductive Verb where
  | generate
  | document
  | pull
  deriving DecidableEq, Repr

/-- The words for the commands. -/
def verbs : List (Text × Verb) :=
  [("generate", .generate), ("g", .generate), ("update-docs", .document), ("docs", .document),
    ("pull-postman", .pull)]

/-- What stands before the command. -/
def programGrammar : Grammar := ⟨"modgen", [help, version, verbose, quiet], .rest⟩

/-- What stands after a command. -/
def Verb.grammar : Verb → Grammar
  | generate =>
    ⟨"modgen generate", help :: documentationOpts ++ [routerFile, strict], .one "name"⟩
  | document => ⟨"modgen update-docs", help :: documentationOpts, .many⟩
  | pull => ⟨"modgen pull-postman", [help, configFile, output, collectionId], .nothing⟩

/-- Puts the word for generating in front of the first argument that is no option, unless it is a
command. -/
def withCommand : List Text → List Text
  | [] => []
  | t :: rest =>
    if Text.startsWith ['-'] t then t :: withCommand rest
    else if t ∈ verbs.map Prod.fst then t :: rest
    else "generate" :: t :: rest

/-! ## Readings -/

/-- A command with what was read after it. -/
structure Command where
  verb : Verb
  reading : Reading

/-- What a command line asks for: `extras` are the arguments that nothing takes. -/
structure Invocation where
  shown : Reading
  command : Option Command
  extras : List Text

/-- Why a command line is not run: it is refused by a part of the program, or it asks for something
that is shown instead. -/
inductive Refusal where
  | complaint (program : Text) (c : Complaint)
  | help
  | version

/-- The reading of a part, unless it asks for something that is shown instead. -/
def readWith (g : Grammar) (texts : List Text) : Except Refusal Reading :=
  match g.read stops texts with
  | .error c => .error (.complaint g.program c)
  | .ok r =>
    match (r.given.map Prod.fst).find? stops with
    | some o => .error (if o = version then .version else .help)
    | none => .ok r

/-- What a command line asks for. -/
def Invocation.read (texts : List Text) : Except Refusal Invocation := do
  let shown ← readWith programGrammar (withCommand texts)
  match shown.filled with
  | none | some [] => return ⟨shown, none, shown.extras⟩
  | some (word :: rest) =>
    match Table.find? word verbs with
    | none =>
      throw (.complaint programGrammar.program (.badChoice word (verbs.map Prod.fst)))
    | some verb =>
      let reading ← readWith verb.grammar rest
      return ⟨shown, some ⟨verb, reading⟩, shown.extras ++ reading.extras⟩

/-- The least level of records that are shown. -/
def Invocation.level (i : Invocation) : Log.Level :=
  if i.shown.has quiet then .error
  else match i.shown.count verbose with
    | 0 => .warning
    | 1 => .info
    | _ => .debug

/-! ## What options give -/

/-- Options that give a setting its value. -/
def settingOpts : List (Opt × Setting) :=
  [(modulesFolder, .modulesFolder), (routerFile, .routerFile),
    (collectionFolder, .collectionFolder), (documentFile, .documentFile), (apiPrefix, .apiPrefix)]

/-- Options that switch a setting off. -/
def switchOpts : List (Opt × Setting) :=
  [(noCollection, .updateCollection), (noDocument, .updateDocument)]

/-- The settings that options give. -/
def givenSettings (r : Reading) : Json.Members :=
  (settingOpts.filterMap fun (o, s) => (r.value? o).map fun t => (s.name, .str t)) ++
    switchOpts.filterMap fun (o, s) => if r.has o then some (s.name, .bool false) else none

/-- The settings file that options ask for. -/
def settingsFile (r : Reading) : Option Path := (r.value? configFile).map Path.ofText

end Scaffold.CommandLine
