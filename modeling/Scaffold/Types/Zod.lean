import Scaffold.Types.Literal
import Scaffold.Types.Naming

/-!
# Request validators

The Zod validator of a field.  Only the optional marker matters here; an update makes every field
optional.
-/

namespace Scaffold.Zod

/-- The validator of a scalar. -/
def scalarName : Scalar → Text
  | .string => "z.string()"
  | .number => "z.number()"
  | .boolean => "z.boolean()"
  | .date => "z.string().datetime()"

/-- The validator of a tag; a tag that is no scalar is validated as a string. -/
def itemName (tag : Text) : Text :=
  match Scalar.ofTag? tag with
  | some s => scalarName s
  | none => "z.string()"

/-- A list validator. -/
def listOf (item : Text) : Text := "z.array(" ++ item ++ ")"

/-- The validator of a list that has no declared item type. -/
def listType (item target : Option Text) : Text :=
  match item with
  | none | some [] =>
    if target.isNone || target = some [] || Field.targetsObject target then listOf "z.any()"
    else listOf "z.string()"
  | some tag => listOf (itemName tag)

/-- A validator that also accepts an absent value. -/
def optional (isOptional : Bool) (validator : Text) : Text :=
  if isOptional then validator ++ ".optional()" else validator

mutual

/-- The validator of a field, regardless of whether it is optional. -/
def type : Field → Text
  | ⟨name, _, _, kind, children⟩ =>
    match kind with
    | .enumeration values =>
      match values.getD [] with
      | [] => "z.string()"
      | v :: vs => "z.enum(" ++ Literal.list (v :: vs) ++ ")"
    | .list item target =>
      if Field.structured kind children then listOf (Field.itemSchemaNameOf name)
      else listType item target
    | .record =>
      if children.isEmpty then "z.record(z.string(), z.any())"
      else "z.object(" ++ Text.braced (Text.join ", " (properties children)) ++ ")"
    | .scalar s => scalarName s
    | .reference _ => "z.string()"
    | .unknown _ => "z.string()"
termination_by structural f => f

/-- The visible properties of an inline object. -/
def properties : List Field → List Text
  | [] => []
  | f :: fs =>
    (if Field.isIdentity f.name then []
      else [f.name ++ ": " ++ optional f.isOptional (type f)]) ++ properties fs
termination_by structural fs => fs

end

/-- The validator of a field in a request. -/
def expression (forceOptional : Bool) (f : Field) : Text :=
  optional (f.isOptional || forceOptional) (type f)

end Scaffold.Zod
