import Scaffold.Json.Writer
import Scaffold.World.Basic

/-!
# Files

Texts and documents in files.  A file is written after the folder for it was made, in one step or in
place, and every write is recorded.
-/

namespace Scaffold.Files

/-- Makes a folder where it is missing. -/
def ensureFolder (p : Path) : Act Unit := do
  Act.change (Disk.makeFolders p)
  Act.say [⟨.debug, .files, "Ensured directory exists: " ++ p.text⟩]

/-- Writes a text and returns the number of its bytes. -/
def write (atomic : Bool) (p : Path) (t : Text) : Act Nat := do
  ensureFolder p.parent
  let content := Utf8.encode t
  Act.change (if atomic then Disk.writeAtomic p content else Disk.writePlain p content)
  Act.say [⟨.debug, .files, "Wrote " ++ Text.ofNat content.length ++ " bytes to " ++ p.text⟩]
  return content.length

/-- Reads a text. -/
def read (p : Path) : Act Text := Act.look fun d => d.readText p

/-- The document in a text of a file. -/
def document (p : Path) (t : Text) : Except Failure Json :=
  (Json.parse t).mapError (.documentFile p.text)

/-- Reads a document. -/
def readDocument (p : Path) : Act Json := do Act.ofExcept (document p (← read p))

/-- Writes a document. -/
def writeDocument (p : Path) (j : Json) : Act Nat := write true p j.fileText

end Scaffold.Files
