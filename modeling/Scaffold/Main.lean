import Scaffold.CommandLine.Run

/-!
# The program

The project in the working folder is read into a disk, the command line is run on it, and what
changed is written back.  Folders of installed packages and of version control are left out.  The
shared collection is out of reach from here: every request fails.
-/

namespace Scaffold.Program

/-- Whether a folder is left out. -/
def isLeftOut (name : String) : Bool := name == "node_modules" || name == ".git"

/-- The entries of a disk that differ from those of an earlier one. -/
def changed (before after : Disk) : List (Location × Entry) :=
  after.entries.filter fun (location, e) => before.find? location != some e

/-- The folders from the root down to a location. -/
def foldersTo (location : Location) : List (Location × Entry) :=
  (List.range location.length).map fun n => (location.take (n + 1), .folder)

/-- The path of a location for the system. -/
def systemPath (location : Location) : String :=
  String.ofList (Path.text ⟨.root, location⟩)

/-- The variables of the process that settings are taken from. -/
def environment : IO Environment :=
  Environment.settingNames.mapM fun (name, _) =>
    return (name, (← IO.getEnv (String.ofList name)).map String.toList)

/-- Writes an entry. -/
def writeEntry (location : Location) : Entry → IO Unit
  | .folder => IO.FS.createDirAll (systemPath location)
  | .file content => IO.FS.writeBinFile (systemPath location) ⟨content.toArray⟩

/-- Prints a text to the error stream. -/
def report (t : Text) : IO Unit := IO.eprintln (String.ofList t)

/-- Reads what a folder holds. -/
partial def readFolder (location : Location) (entry : IO.FS.DirEntry) :
    IO (List (Location × Entry)) := do
  let here := location ++ [entry.fileName.toList]
  if ← entry.path.isDir then
    if isLeftOut entry.fileName then return []
    else
      let inside ← (← entry.path.readDir).toList.mapM (readFolder here)
      return (here, .folder) :: inside.flatten
  else return [(here, .file (← IO.FS.readBinFile entry.path).toList)]

end Scaffold.Program

open Scaffold Program in
/-- Runs a command line in the working folder. -/
def main (args : List String) : IO UInt32 := do
  let folder ← IO.currentDir
  let base := Path.ofText folder.toString.toList
  let inside ← (← folder.readDir).toList.mapM (readFolder base.parts)
  let disk : Disk := { entries := foldersTo base.parts ++ inside.flatten, home := base.parts }
  let texts := args.map String.toList
  let (outcome, w) := (CommandLine.run base (← environment) texts).runOn { disk, remote := .script [] }
  for (location, e) in changed disk w.disk do
    writeEntry location e
  for r in Log.shown (CommandLine.levelOf texts) w.log do
    report r.line
  match outcome with
  | .error f =>
    report f.message
    return 1
  | .ok answer =>
    for complaint in answer.complaint do
      report complaint
    IO.print (String.ofList answer.printed)
    return UInt32.ofNat answer.exitCode
