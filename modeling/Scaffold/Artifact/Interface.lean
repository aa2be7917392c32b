import Scaffold.Artifact.Blueprint
import Scaffold.Artifact.Code
import Scaffold.Artifact.Members
import Scaffold.Types.TypeScript

/-!
# The interface file

The static types of a module, in blocks: one interface for the items of every list of objects, one
enumeration for every enumeration field, the filters, the document itself, and the type of the
model.
-/

namespace Scaffold.Interface

open Code

mutual

/-- The enumerations at a field and below it, by name. -/
def enumsIn (scope : Text) : Field → List (Text × List Text)
  | ⟨name, _, _, kind, children⟩ =>
    enumsAmong (Field.scopeOf name kind children) children ++
      match kind with
      | .enumeration (some (v :: vs)) => [(Field.enumTypeName scope name, v :: vs)]
      | _ => []
termination_by structural f => f

/-- The enumerations among fields and below them, by name. -/
def enumsAmong (scope : Text) : List Field → List (Text × List Text)
  | [] => []
  | f :: fs => enumsIn scope f ++ enumsAmong scope fs
termination_by structural fs => fs

end

/-- The enumerations that are declared: of those with one name the first. -/
def enums (fields : List Field) : List (Text × List Text) :=
  (enumsAmong [] fields).foldl (fun t e => Table.putNew e.1 e.2 t) []

/-- The properties of an interface, one per visible field. -/
def propertyLines (scope : Text) (fields : List Field) : List Text :=
  (Field.visible fields).map fun f => indent 2 (TypeScript.property scope f ++ [';'])

/-- The interface of the items of a list of objects. -/
def itemBlock (f : Field) : List Text :=
  block ("export interface " ++ f.itemTypeName) (propertyLines f.scope f.children)

/-- A member of an enumeration. -/
def memberLine (member : Text × Text) : Text :=
  indent 2 (member.1 ++ " = " ++ Literal.quote member.2 ++ [','])

/-- The declaration of an enumeration. -/
def enumBlock (declared : Text × List Text) : List Text :=
  block ("export enum " ++ declared.1) ((Members.ofValues declared.2).map memberLine)

/-- The interface of the filters, if there are any. -/
def filterBlock (b : Blueprint) : List Text :=
  match b.filterable with
  | [] => []
  | f :: fs =>
    block ("export interface I" ++ b.names.className ++ "Filterables")
      (indent 2 "searchTerm?: string;" ::
        (f :: fs).map fun f => indent 2 (TypeScript.property [] { f with isOptional := true } ++ [';']))

/-- The interface of the document. -/
def documentBlock (b : Blueprint) : List Text :=
  block ("export interface I" ++ b.names.className)
    (indent 2 "_id: Types.ObjectId;" ::
      match b.fields with
      | [] => [indent 2 "// Define interface properties here"]
      | f :: fs => (f :: fs).map fun f => indent 2 (TypeScript.property [] f ++ [';']))

/-- The lines of the interface file. -/
def fileLines (b : Blueprint) : List Text :=
  [importNames ["Model", "Types"] "mongoose", []] ++
    (Field.nested b.fields).flatMap itemBlock ++ (enums b.fields).flatMap enumBlock ++
    filterBlock b ++ documentBlock b ++
    ["export type " ++ b.names.className ++ "Model = Model<I" ++ b.names.className ++ ", " ++
      lb ++ rb ++ ", " ++ lb ++ rb ++ ">;", []]

/-- The interface file. -/
def file (b : Blueprint) : Text := Text.lines (fileLines b)

end Scaffold.Interface
