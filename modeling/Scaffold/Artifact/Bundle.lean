import Scaffold.Artifact.Handlers
import Scaffold.Artifact.Interface
import Scaffold.Artifact.Model
import Scaffold.Artifact.Validation
import Scaffold.Log

/-!
# All files of a module

The generated files in the order in which they are written, less those that are left out.
-/

namespace Scaffold

/-- The text of a generated file. -/
def Artifact.render (b : Blueprint) : Artifact → Text
  | interface => Interface.file b
  | model => Model.file b
  | controller => Controller.file b
  | service => Service.file b
  | route => Route.file b
  | validation => Validation.file b
  | constants => Constants.file b

namespace Bundle

/-- Whether a file is left out; its name may be given in any case. -/
def isSkipped (skipped : List Text) (a : Artifact) : Bool := a.name ∈ skipped.map Text.lower

/-- The files that are generated. -/
def kinds (skipped : List Text) : List Artifact :=
  Artifact.all.filter fun a => !isSkipped skipped a

/-- The generated files with their texts. -/
def render (b : Blueprint) (skipped : List Text) : List (Artifact × Text) :=
  (kinds skipped).map fun a => (a, a.render b)

/-- The record of preparing a blueprint. -/
def blueprintRecord (b : Blueprint) : Log.Record :=
  ⟨.debug, .templates, "TemplateGenerator initialised for " ++ b.names.className ++ " (" ++
    Text.ofNat b.fields.length ++ " fields, upload=" ++
    (if b.upload then "True".toList else "False".toList) ++ ")."⟩

/-- The records of generating files. -/
def records (b : Blueprint) (skipped : List Text) : List Log.Record :=
  ((Artifact.all.filter (isSkipped skipped)).map fun a =>
    ⟨.info, .templates, "Skipping " ++ b.names.fileName a⟩) ++
    [⟨.debug, .templates, "Rendered " ++ Text.ofNat (kinds skipped).length ++
      " artifact(s) for " ++ b.names.className ++ "."⟩]

end Bundle

end Scaffold
