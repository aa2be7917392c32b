import Scaffold.Text.Blank
import Scaffold.Text.Case

/-!
# Names of a module

From the name given by the user come a class name, in which only the first letter is upper case,
and a folder name, which is all lower case.  Everything else is named after these two.
-/

namespace Scaffold

/-- The generated files of a module, in the order in which they are written. -/
inductive Artifact where
  | interface
  | model
  | controller
  | service
  | route
  | validation
  | constants
  deriving DecidableEq, Repr

namespace Artifact

/-- All generated files. -/
def all : List Artifact := [interface, model, controller, service, route, validation, constants]

/-- The word for a generated file. -/
def name : Artifact → Text
  | interface => "interface"
  | model => "model"
  | controller => "controller"
  | service => "service"
  | route => "route"
  | validation => "validation"
  | constants => "constants"

theorem mem_all (a : Artifact) : a ∈ all := by cases a <;> decide

theorem name_injective {a b : Artifact} (h : a.name = b.name) : a = b := by
  cases a <;> cases b <;> first | rfl | exact absurd h (by decide)

end Artifact

/-- The names of one module. -/
structure Names where
  raw : Text
  className : Text
  folder : Text
  deriving DecidableEq, Repr

namespace Names

/-- The names that come from a given one; a name of blanks alone has none. -/
def ofRaw? (raw : Text) : Option Names :=
  match Text.withoutBlanks (Text.trim raw) with
  | [] => none
  | c :: rest =>
    let className := Text.upperChar c ++ Text.lower rest
    some ⟨raw, className, Text.lower className⟩

/-- The exported router of a module. -/
def routesSymbol (n : Names) : Text := n.className ++ "Routes"

/-- The folder of a module in a request collection. -/
def collectionFolder (n : Names) : Text := n.className ++ " API"

/-- The file name of a kind of file. -/
def fileNameOf (n : Names) (kind : Text) : Text := n.folder ++ "." ++ kind ++ ".ts"

/-- The file name of a generated file. -/
def fileName (n : Names) (a : Artifact) : Text := n.fileNameOf a.name

end Names

end Scaffold
