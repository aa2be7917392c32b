import Scaffold.Field.Basic
import Scaffold.Names

/-!
# Blueprints

What the generated files of one module are made from: its names, its visible fields and whether
uploads were asked for.
-/

namespace Scaffold

/-- The plan of one module.  The fields are the visible ones. -/
structure Blueprint where
  names : Names
  fields : List Field
  upload : Bool

namespace Blueprint

/-- The blueprint of a module with all its fields. -/
def ofFields (names : Names) (fields : List Field) (upload : Bool) : Blueprint :=
  ⟨names, Field.visible fields, upload⟩

/-- The names of fields that receive uploaded files. -/
def uploadNames : List Text := ["image", "images", "media"]

/-- The tag of fields that receive uploaded files under any name. -/
def uploadTag : Text := "image"

/-- Whether the module handles uploads: on request, or because a field receives files. -/
def usesUpload (b : Blueprint) : Bool :=
  b.upload || b.fields.any fun f => f.name ∈ uploadNames || f.kind.tag = uploadTag

/-- The field that receives uploaded files. -/
def uploadField (b : Blueprint) : Text :=
  match b.fields.find? fun f => f.name ∈ uploadNames with
  | some f => f.name
  | none => "image"

/-- Whether a kind is a string. -/
def isString (k : Kind) : Bool := k = .scalar .string

/-- Whether a kind is an enumeration. -/
def isEnumeration : Kind → Bool
  | .enumeration _ => true
  | _ => false

/-- The fields by which lists of documents can be filtered. -/
def filterable (b : Blueprint) : List Field :=
  b.fields.filter fun f => isString f.kind || isEnumeration f.kind

/-- The fields that are searched for a term. -/
def searchable (b : Blueprint) : List Field := b.fields.filter fun f => isString f.kind

end Blueprint

end Scaffold
