import Scaffold.Router.Edit
import Scaffold.Settings.Basic
import Scaffold.World.Files

/-!
# Registering a module

The module is registered in the router file on the disk.  A missing file, a file without the list of
routes and a file that cannot be read or written are reported in the result and fail nothing.
-/

namespace Scaffold

/-- What registering a module did. -/
structure RegistrationResult where
  path : Text
  importAdded : Bool := false
  routeAdded : Bool := false
  changed : Bool := false
  warnings : List Text := []
  error : Option Text := none
  deriving DecidableEq, Repr

namespace Registration

/-- What is said when the list of routes cannot be found. -/
def noList : Text := "Could not find apiRoutes array in router file"

/-- The result of a patch that is not written yet. -/
def ofPatch (p : Path) (patch : Router.Patch) : RegistrationResult :=
  { path := p.text, importAdded := patch.importAdded, routeAdded := patch.routeAdded,
    warnings := if patch.listFound then [] else [noList] }

/-- The result with an error. -/
def failed (r : RegistrationResult) (f : Failure) : Act RegistrationResult := do
  let message := "Error updating router file: " ++ f.message
  Act.say [⟨.error, .routerFile, message⟩]
  return { r with error := some message }

/-- Whether a failure is one that registering reports instead of failing. -/
def isReported : Failure → Bool
  | .os _ | .encoding _ => true
  | _ => false

/-- Writes a patched text if it differs from the one that was read. -/
def store (p : Path) (before : Text) (patch : Router.Patch) : Act RegistrationResult := do
  let r := ofPatch p patch
  Act.say (r.warnings.map fun w => ⟨.warning, .routerFile, w⟩)
  if patch.content = before then
    Act.say [⟨.debug, .routerFile, "Router file already up to date: " ++ p.text⟩]
    return r
  else
    match ← Act.attempt (Files.write true p patch.content) with
    | .ok _ =>
      Act.say [⟨.info, .routerFile, "Updated router file: " ++ p.text⟩]
      return { r with changed := true }
    | .error f => if isReported f then failed r f else throw f

/-- Registers a module in the router file. -/
def register (s : Settings) (n : Names) : Act RegistrationResult := do
  let p := s.routerPath
  let r : RegistrationResult := { path := p.text }
  if ← Act.look fun d => d.isFile p then
    match ← Act.attempt (Files.read p) with
    | .ok before => store p before (Router.patch n before)
    | .error f => if isReported f then failed r f else throw f
  else
    let message := "Router file not found: " ++ p.text
    Act.say [⟨.warning, .routerFile, message⟩]
    return { r with warnings := [message] }

end Registration

end Scaffold
