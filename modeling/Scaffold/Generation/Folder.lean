import Scaffold.Artifact.Bundle
import Scaffold.Digest.Sha256
import Scaffold.Settings.Basic
import Scaffold.World.Files
import Scaffold.World.Timing

/-!
# Writing the folder of a module

The files of a module go into a folder of their own, which must not exist before.  A file that cannot
be written is reported and the others are still attempted, so every file ends up either among the
records or among the errors.  The shared upload helper is written beside them when it is wanted and
missing; one that is there is left alone.
-/

namespace Scaffold

/-- A file that was written: what it is, its path, and the size, lines and digest of its text. -/
structure FileRecord where
  kind : Text
  path : Text
  size : Nat
  lines : Nat
  digest : Text
  deriving DecidableEq, Repr

/-- What writing the folder of a module did. -/
structure FolderResult where
  folder : Text
  created : Bool := false
  existed : Bool := false
  files : List FileRecord := []
  errors : List Text := []
  warnings : List Text := []
  deriving DecidableEq, Repr

namespace FolderResult

/-- Whether nothing failed. -/
def success (r : FolderResult) : Bool := r.errors.isEmpty

/-- The number of bytes written. -/
def size (r : FolderResult) : Nat := r.files.foldr (fun f n => f.size + n) 0

/-- The number of lines written. -/
def lines (r : FolderResult) : Nat := r.files.foldr (fun f n => f.lines + n) 0

/-- The paths written. -/
def paths (r : FolderResult) : List Text := r.files.map FileRecord.path

end FolderResult

namespace ModuleFolder

/-- The folder of a module. -/
def path (s : Settings) (n : Names) : Path := s.modulesPath.child n.folder

/-- The name of the shared upload helper. -/
def helperName : Text := "fileHelper.ts"

/-- The path of the shared upload helper. -/
def helperPath (s : Settings) : Path := s.helpersPath.child helperName

/-- Writes one file. -/
def writeFile (atomic : Bool) (kind : Text) (p : Path) (t : Text) : Act FileRecord := do
  let size ← Files.write atomic p t
  return ⟨kind, p.text, size, Text.countLines t, Sha256.hex t⟩

/-- What became of one file: its record, or the message about its failure. -/
inductive Outcome where
  | written (r : FileRecord)
  | failed (message : Text)

/-- Writes one file of the folder; a failure of the file system is an outcome. -/
def writeArtifact (atomic : Bool) (folder : Path) (n : Names) (a : Artifact) (t : Text) :
    Act Outcome := do
  let p := folder.child (n.fileName a)
  match ← Act.attempt (writeFile atomic a.name p t) with
  | .ok r =>
    Act.say [⟨.info, .moduleFolder, "Created " ++ p.name⟩]
    return .written r
  | .error (.os e) =>
    let message := "Failed to write " ++ p.name ++ ": " ++ e.errno.category ++ ": " ++ e.message
    Act.say [⟨.error, .moduleFolder, message⟩]
    return .failed message
  -- any other failure ends the run, with the files that are written so far
  | .error f => throw f

/-- Adds an outcome to a result. -/
def FolderResult.add (r : FolderResult) : Outcome → FolderResult
  | .written file => { r with files := r.files ++ [file] }
  | .failed message => { r with errors := r.errors ++ [message] }

/-- Writes the files of the folder one after another. -/
def writeArtifacts (atomic : Bool) (folder : Path) (n : Names) (r : FolderResult) :
    List (Artifact × Text) → Act FolderResult
  | [] => return r
  | (a, t) :: rest => do
    let outcome ← writeArtifact atomic folder n a t
    writeArtifacts atomic folder n (FolderResult.add r outcome) rest

/-- Writes the shared upload helper if it is missing. -/
def writeHelper (atomic : Bool) (s : Settings) (r : FolderResult) : Act FolderResult := do
  let p := helperPath s
  if ← Act.look fun d => d.isPresent p then
    Act.say [⟨.debug, .moduleFolder, "Upload helper already present at " ++ p.text⟩]
    return r
  else
    match ← Act.attempt (writeFile atomic "file_helper" p UploadHelper.file) with
    | .ok file =>
      Act.say [⟨.info, .moduleFolder, "Created " ++ p.text⟩]
      return FolderResult.add r (.written file)
    | .error (.os e) =>
      let message := "Failed to write " ++ p.text ++ ": " ++ e.message
      Act.say [⟨.error, .moduleFolder, message⟩]
      return FolderResult.add r (.failed message)
    | .error f => throw f

/-- Makes the folder and fills it; without a result the folder could not be made. -/
def fill (atomic : Bool) (s : Settings) (n : Names) (files : List (Artifact × Text)) (upload : Bool) :
    Act (FolderResult × Bool) := do
  let folder := path s n
  match ← Act.attempt (Files.ensureFolder folder) with
  | .ok () =>
    let r ← writeArtifacts atomic folder n { folder := folder.text, created := true } files
    return (← if upload then writeHelper atomic s r else pure r, true)
  | .error (.os e) =>
    let message := "Failed to create module directory " ++ folder.text ++ ": " ++ e.message
    Act.say [⟨.error, .moduleFolder, message⟩]
    return ({ folder := folder.text, errors := [message] }, false)
  | .error f => throw f

/-- The record of a folder that was made. -/
def closingRecord (n : Names) (r : FolderResult) : Log.Record :=
  if r.success then
    ⟨.info, .moduleFolder, "Exported " ++ Text.ofNat r.files.length ++ " file(s), " ++
      Text.ofNat r.size ++ " bytes, in " ++ Timing.still.fixed 3 ++ "s."⟩
  else
    ⟨.error, .moduleFolder, "Export of " ++ n.folder ++ " completed with " ++
      Text.ofNat r.errors.length ++ " error(s)."⟩

/-- Writes the files of a module into its folder, unless the folder exists. -/
def write (atomic : Bool) (s : Settings) (n : Names) (files : List (Artifact × Text))
    (upload : Bool) : Act FolderResult := do
  let folder := path s n
  if ← Act.look fun d => d.isPresent folder then
    let message := "Module " ++ n.folder ++ " already exists at " ++ folder.text
    Act.say [⟨.warning, .moduleFolder, message⟩]
    return { folder := folder.text, existed := true, warnings := [message] }
  else
    let (r, made) ← Timing.timed "export" (fill atomic s n files upload)
    if made then Act.say [closingRecord n r]
    return r

end ModuleFolder

end Scaffold
