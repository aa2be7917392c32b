import Scaffold.Json.Basic
import Scaffold.Types.Naming

/-!
# OpenAPI properties

The schema object of a field.  A list of objects refers to the schema of its items; every other
field is described in place.
-/

namespace Scaffold.OpenApi

/-- Where component schemas stand in a document. -/
def schemaRoot : Text := "#/components/schemas/"

/-- A reference to a component schema. -/
def reference (name : Text) : Json := .object [("$ref", .str (schemaRoot ++ name))]

/-- The members that describe a scalar. -/
def scalarMembers : Scalar → List (String × Json)
  | .string => [("type", .lit "string")]
  | .number => [("type", .lit "number")]
  | .boolean => [("type", .lit "boolean")]
  | .date => [("type", .lit "string"), ("format", .lit "date-time")]

/-- The members that describe a tag; a tag that is no scalar is described as a string. -/
def itemMembers (tag : Text) : List (String × Json) :=
  match Scalar.ofTag? tag with
  | some s => scalarMembers s
  | none => [("type", .lit "string")]

/-- A list with described items. -/
def listOf (items : Json) (description : Text) : Json :=
  .object [("type", .lit "array"), ("items", items), ("description", .str description)]

/-- Whether a list without declared item type holds references. -/
def holdsReferences (item target : Option Text) : Bool :=
  item = some objectIdTag ||
    (item.isNone && target.isSome && target ≠ some [] && !Field.targetsObject target)

/-- The description of a list that has no declared item type. -/
def listType (name : Text) (item target : Option Text) : Json :=
  if holdsReferences item target then
    listOf (.object [("type", .lit "string")]) ("Array of " ++ name ++ " references")
  else
    let items : Json := match item with
      | none | some [] => .obj []
      | some tag => .object (itemMembers tag)
    listOf items ("Array of " ++ name ++ " items")

mutual

/-- The description of a field. -/
def property : Field → Json
  | ⟨name, _, _, kind, children⟩ =>
    match kind with
    | .enumeration values =>
      .object [("type", .lit "string"), ("enum", .strings (values.getD [])),
        ("description", .str (name ++ " field"))]
    | .reference _ =>
      .object [("type", .lit "string"), ("description", .str (name ++ " reference ID"))]
    | .list item target =>
      if Field.structured kind children then
        listOf (reference (Field.itemTypeNameOf name)) ("Array of " ++ name ++ " objects")
      else listType name item target
    | .record =>
      .object ([("type", .lit "object"), ("description", .str (name ++ " object"))] ++
        if children.isEmpty then []
        else [("properties", .obj (Table.ofEntries (properties children)))])
    | .scalar s => .object (scalarMembers s ++ [("description", .str (name ++ " field"))])
    | .unknown _ =>
      .object [("type", .lit "string"), ("description", .str (name ++ " field"))]
termination_by structural f => f

/-- The visible properties among fields, by name. -/
def properties : List Field → List (Text × Json)
  | [] => []
  | f :: fs =>
    (if Field.isIdentity f.name then [] else [(f.name, property f)]) ++ properties fs
termination_by structural fs => fs

end

end Scaffold.OpenApi
