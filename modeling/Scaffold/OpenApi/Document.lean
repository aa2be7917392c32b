import Scaffold.Json.Access

/-!
# Merging into the API document

The document is shared by all modules and may have been edited.  A module's paths and schemas are
written over those of the same key; everything else stays where it is.
-/

namespace Scaffold.OpenApi

/-- The document that is started with. -/
def defaultDocument : Json :=
  .object [("openapi", .lit "3.0.0"),
    ("info", .object [("title", .lit "API Documentation"), ("version", .lit "1.0.0"),
      ("description", .lit "Generated API documentation")]),
    ("paths", .obj []), ("components", .object [("schemas", .obj [])])]

/-- The members of a value that may be absent, with others written over them. -/
def overlaid (existing : Option Json) (written : Json) : Except Misfit Json := do
  let old ← (Json.orEmptyObject existing).mapping
  let new ← written.mapping
  return .obj (Table.overlay old new)

/-- Merges paths and schemas into a document. -/
def merge (document paths schemas : Json) : Except Misfit Json := do
  let members ← document.copyMembers
  let mergedPaths ← overlaid (← document.member? "paths") paths
  let components ← (Json.orEmptyObject (← document.member? "components")).copyMembers
  let mergedSchemas ← overlaid (Json.Members.find? "schemas" components) schemas
  return .obj (Json.Members.put "components" (.obj (Json.Members.put "schemas" mergedSchemas components))
    (Json.Members.put "paths" mergedPaths members))

end Scaffold.OpenApi
