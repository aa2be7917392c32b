import Scaffold.CommandLine.Commands
import Scaffold.Generation.Rebuild
import Scaffold.Generation.Run
import Scaffold.Settings.Installed

/-!
# Running a command

A command line is read, the settings are loaded and the command is run.  The answer holds the exit
code and what is printed; the records of the run are shown according to the level that the command
line asks for.
-/

namespace Scaffold.CommandLine

/-- The outcome of a command line: the exit code, the text printed, and the complaint about the
arguments if there is one. -/
structure Answer where
  exitCode : Nat
  printed : Text := []
  complaint : Option Text := none
  deriving DecidableEq, Repr

/-- The exit codes. -/
inductive ExitCode where
  | success
  | refusedInput
  | failedGeneration
  | failedRemote
  | badInput
  deriving DecidableEq, Repr

/-- The number of an exit code. -/
def ExitCode.number : ExitCode → Nat
  | success => 0
  | refusedInput => 1
  | failedGeneration => 2
  | failedRemote => 3
  | badInput => 4

/-- An answer with a line printed. -/
def Answer.line (code : ExitCode) (t : Text) : Answer := { exitCode := code.number, printed := t ++ ['\n'] }

/-- An answer with nothing printed. -/
def Answer.silent (code : ExitCode) : Answer := { exitCode := code.number }

/-- The version of the program. -/
def versionText : Text := "modgen v0.2.0"

/-- How the program is used. -/
def usageText : Text :=
  "usage: modgen [-h] [--version] [-v] [-q] COMMAND ..."

/-! ## The commands -/

/-- The exit code for a report. -/
def exitCodeOf (r : Report) : ExitCode :=
  if r.success then .success
  else if r.validationErrors.isEmpty then .failedGeneration
  else .refusedInput

/-- Generates a module; arguments that nothing takes are its tokens. -/
def runGenerate (s : Settings) (r : Reading) (tokens : List Text) : Act Answer := do
  Act.say [⟨.info, .command, "Processing field arguments: " ++ Text.quotedList tokens⟩]
  let g : Generator := ⟨s, r.has strict, none⟩
  Act.say [g.preparing]
  let name := ((r.filled.getD []).head?).getD []
  let report ← g.generate name tokens
  return .line (exitCodeOf report) report.summary

/-- Rebuilds the documentation of modules on the disk. -/
def runDocument (s : Settings) (r : Reading) : Act Answer := do
  if ← Act.look fun d => d.isFolder s.modulesPath then
    let updated ← Rebuild.run s (r.filled.getD []) none
    return .line .success ("Updated documentation for " ++ Text.ofNat updated ++ " module(s).")
  else
    Act.say [⟨.error, .command, "Modules directory not found: " ++ s.modulesPath.text⟩]
    return .silent .badInput

/-- What is said when the shared collection is not known. -/
def noRemote : Text :=
  "POSTMAN_API_KEY and a collection id (POSTMAN_COLLECTION_ID or --collection-id) are required."

/-- The first of two texts that is set and not empty. -/
def firstGiven (a b : Option Text) : Option Text :=
  if Settings.isGiven a then a else if Settings.isGiven b then b else none

/-- Writes a copy of the shared collection. -/
def saveCopy (collection : Json.Members) (p : Path) : Act Answer := do
  match ← Act.attempt (Documentation.saveCopy (.obj collection) p) with
  | .ok () => return .line .success ("Full Postman collection exported to: " ++ p.text)
  | .error f => if f.isOs then return .silent .failedGeneration else throw f

/-- Fetches the shared collection and writes a copy of it. -/
def runPull (s : Settings) (r : Reading) : Act Answer := do
  match firstGiven (r.value? collectionId) s.collectionId, Settings.isGiven s.apiKey with
  | some id, true =>
    let target := s.base.join (((r.value? output).map Path.ofText).getD Documentation.copyPath)
    match ← Act.attempt (do (← Documentation.clientOf s).fetch id) with
    | .ok collection => saveCopy collection target
    | .error (.remote f) =>
      Act.say [⟨.error, .command, "Error fetching Postman collection: " ++ f.message⟩]
      return .silent .failedRemote
    | .error f => throw f
  | _, _ =>
    Act.say [⟨.error, .command, noRemote⟩]
    return .silent .badInput

/-! ## A command line -/

/-- Runs a command with its settings; whatever stops it is reported. -/
def runWith (s : Settings) (c : Command) (extras : List Text) : Act Answer := do
  let act := match c.verb with
    | .generate => runGenerate s c.reading extras
    | .document => runDocument s c.reading
    | .pull => runPull s c.reading
  match ← Act.attempt act with
  | .ok answer => return answer
  | .error f =>
    Act.say [⟨.error, .command, "Error executing command: " ++ f.message⟩]
    return .silent .failedGeneration

/-- Loads the settings for a command and runs it.  Only generating takes arguments of any kind. -/
def runCommand (base : Path) (process : Environment) (c : Command) (extras : List Text) :
    Act Answer := do
  if c.verb ≠ .generate ∧ !extras.isEmpty then
    Act.say [⟨.error, .command, "Unrecognised arguments: " ++ Text.join [' '] extras⟩]
    return .silent .badInput
  else
    let load := Settings.load base (settingsFile c.reading) (givenSettings c.reading) none process
    match ← Act.attempt load with
    | .ok s => runWith s c extras
    | .error f =>
      if f.isBadValue then
        Act.say [⟨.error, .command, "Configuration error: " ++ f.message⟩]
        return .silent .badInput
      else throw f

/-- The answer to a command line that is not run. -/
def refusalAnswer : Refusal → Answer
  | .complaint program c =>
    { exitCode := 2, complaint := some (program ++ ": error: " ++ c.message) }
  | .help => .line .success usageText
  | .version => .line .success versionText

/-- Runs a command line in a folder. -/
def run (base : Path) (process : Environment) (args : List Text) : Act Answer :=
  match args, Invocation.read args with
  | [], _ => return .silent .badInput
  | _, .error refusal => return refusalAnswer refusal
  | _, .ok i =>
    match i.command with
    | none => return .silent .badInput
    | some c => runCommand base process c i.extras

/-- The least level of records that a command line shows. -/
def levelOf (args : List Text) : Log.Level :=
  match Invocation.read args with
  | .ok i => i.level
  | .error _ => .warning

end Scaffold.CommandLine
