import Scaffold.Types.Naming

/-!
# Static types

The TypeScript type of a field.  An enumeration is referred to by the name that it has in its
scope; the optional marker goes on the property name.
-/

namespace Scaffold.TypeScript

/-- The type of a scalar. -/
def scalarName : Scalar → Text
  | .string => "string"
  | .number => "number"
  | .boolean => "boolean"
  | .date => "Date"

/-- The type of a reference. -/
def referenceName : Text := "Types.ObjectId"

/-- The type of a tag; a tag that is neither a scalar nor a reference has the type of strings. -/
def itemName (tag : Text) : Text :=
  match Scalar.ofTag? tag with
  | some s => scalarName s
  | none => if tag = objectIdTag then referenceName else "string"

/-- The type of a list that has no declared item type. -/
def listType (item target : Option Text) : Text :=
  match item with
  | none | some [] =>
    if target.isNone || target = some [] || Field.targetsObject target then "any[]"
    else referenceName ++ "[]"
  | some tag => itemName tag ++ "[]"

/-- The name of a property with its optional marker. -/
def propertyName (isOptional : Bool) (name : Text) : Text :=
  if isOptional then name ++ ['?'] else name

mutual

/-- The type of a field declared in a scope. -/
def type (scope : Text) : Field → Text
  | ⟨name, _, _, kind, children⟩ =>
    match kind with
    | .enumeration values =>
      if (values.getD []).isEmpty then "string" else Field.enumTypeName scope name
    | .list item target =>
      if Field.structured kind children then Field.itemTypeNameOf name ++ "[]"
      else listType item target
    | .record =>
      if children.isEmpty then "Record<string, any>"
      else Text.braced (Text.join "; " (properties (Field.scopeOf name kind children) children))
    | .scalar s => scalarName s
    | .reference _ => referenceName
    | .unknown _ => "string"
termination_by structural f => f

/-- The visible properties of an inline object with the given scope. -/
def properties (scope : Text) : List Field → List Text
  | [] => []
  | f :: fs =>
    (if Field.isIdentity f.name then []
      else [propertyName f.isOptional f.name ++ ": " ++ type scope f]) ++ properties scope fs
termination_by structural fs => fs

end

/-- A field as a property of an interface, without the semicolon. -/
def property (scope : Text) (f : Field) : Text :=
  propertyName f.isOptional f.name ++ ": " ++ type scope f

end Scaffold.TypeScript
