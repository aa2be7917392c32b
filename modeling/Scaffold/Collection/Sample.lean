import Scaffold.Json.Writer
import Scaffold.Types.Naming

/-!
# Sample requests

The body of a sample request holds a placeholder for every value, and a script that runs before the
request sets the variables behind the placeholders.  A variable below an object is named after the
object and the property.
-/

namespace Scaffold.Sample

/-- The variable of a field below an owner; at the top level the owner is empty. -/
def variableName (owner name : Text) : Text := if owner.isEmpty then name else owner ++ '_' :: name

/-- A placeholder for the value of a variable. -/
def placeholder (name : Text) : Text := '{' :: '{' :: name ++ ['}', '}']

/-- A line that sets a variable to the value of an expression. -/
def assignment (name expression : Text) : Text :=
  "pm.variables.set(\"" ++ name ++ "\", " ++ expression ++ ");"

/-- The expression of a sample value. -/
def scalarExpression (name : Text) : Scalar → Text
  | .string => ['"'] ++ name ++ "_\" + Date.now()"
  | .number => "Math.floor(Math.random() * 100)"
  | .boolean => "Math.random() < 0.5"
  | .date => "new Date().toISOString()"

/-- Sets a variable to one of the values of an enumeration. -/
def choiceLines (name : Text) : List Text → List Text
  | [] => [assignment name "\"ENUM_VALUE\""]
  | v :: vs =>
    let list := name ++ "_values"
    ["const " ++ list ++ " = " ++ Json.stringListText (v :: vs) ++ ";",
      assignment name (list ++ "[Math.floor(Math.random() * " ++ list ++ ".length)]")]

mutual

/-- The lines that set the variables of a field. -/
def fieldScript (owner : Text) : Field → List Text
  | ⟨name, _, _, kind, children⟩ =>
    match kind with
    | .scalar s => [assignment (variableName owner name) (scalarExpression name s)]
    | .enumeration values => choiceLines (variableName owner name) (values.getD [])
    | .record => script (variableName owner name) children
    | .list _ _ =>
      if Field.structured kind children then script (variableName owner name) children else []
    | _ => []
termination_by structural f => f

/-- The lines that set the variables of the visible fields. -/
def script (owner : Text) : List Field → List Text
  | [] => []
  | f :: fs => (if Field.isIdentity f.name then [] else fieldScript owner f) ++ script owner fs
termination_by structural fs => fs

end

mutual

/-- The sample value of a field. -/
def value (owner : Text) : Field → Json
  | ⟨name, _, _, kind, children⟩ =>
    match kind with
    | .list _ _ =>
      if Field.structured kind children then
        .arr [.obj (Table.ofEntries (entries (variableName owner name) children))]
      else .arr []
    | .record => .obj (Table.ofEntries (entries (variableName owner name) children))
    | _ => .str (placeholder (variableName owner name))
termination_by structural f => f

/-- The sample values of the visible fields, by name. -/
def entries (owner : Text) : List Field → List (Text × Json)
  | [] => []
  | f :: fs => (if Field.isIdentity f.name then [] else [(f.name, value owner f)]) ++ entries owner fs
termination_by structural fs => fs

end

/-- The body of a sample request. -/
def body (owner : Text) (fields : List Field) : Json.Members := Table.ofEntries (entries owner fields)

/-- The number of fields that a sample update shows. -/
def updateSize : Nat := 3

/-- The body of a sample update. -/
def updateBody (fields : List Field) : Json.Members := (body [] fields).take updateSize

end Scaffold.Sample
