import Scaffold.Names
import Scaffold.Types.OpenApi

/-!
# The component schemas of a module

One schema for the items of every list of objects, one for stored documents, one for the body of a
create request and one for the body of an update, which requires nothing.
-/

namespace Scaffold.OpenApi

/-- The names of the visible required fields. -/
def requiredNames (fields : List Field) : List Text :=
  ((Field.visible fields).filter (·.isRequired)).map (·.name)

/-- An object with properties. -/
def objectSchema (properties : Json.Members) (more : List (String × Json)) : Json :=
  .object ([("type", .lit "object"), ("properties", .obj properties)] ++ more)

/-- The properties of fields by name. -/
def propertyTable (fields : List Field) : Json.Members := Table.ofEntries (properties fields)

/-- The schema of data that has to hold the required fields. -/
def strictSchema (fields : List Field) : Json :=
  objectSchema (propertyTable fields) [("required", .strings (requiredNames fields))]

/-- The schema of data in which every field may be absent. -/
def lenientSchema (fields : List Field) : Json := objectSchema (propertyTable fields) []

/-- A time kept by the storage layer. -/
def timestamp (description : String) : Json :=
  .object [("type", .lit "string"), ("format", .lit "date-time"), ("description", .lit description)]

/-- The schema of stored documents: identity, fields and times. -/
def documentSchema (fields : List Field) : Json :=
  let identity : Json.Members :=
    [Json.member "_id" (.object [("type", .lit "string"), ("description", .lit "MongoDB ObjectId")])]
  let times : Json.Members := [Json.member "createdAt" (timestamp "Creation timestamp"),
    Json.member "updatedAt" (timestamp "Last update timestamp")]
  objectSchema (Table.overlay (Table.overlay identity (properties fields)) times)
    [("required", .strings ("_id" :: requiredNames fields))]

/-- The schemas of a module. -/
def schemas (n : Names) (fields : List Field) : Json.Members :=
  Table.ofEntries (((Field.nested fields).map fun f => (f.itemTypeName, strictSchema f.children)) ++
    [(n.className, documentSchema fields), (n.className ++ "Create", strictSchema fields),
      (n.className ++ "Update", lenientSchema fields)])

end Scaffold.OpenApi
