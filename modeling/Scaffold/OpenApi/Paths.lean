import Scaffold.Names
import Scaffold.Types.OpenApi

/-!
# The paths of a module in the API document

`/<folder>` takes new documents and lists all; `/<folder>/{id}` reads, updates and deletes one.
-/

namespace Scaffold.OpenApi

/-- Content in the one media type that is used. -/
def content (schema : Json) : Json :=
  .object [("application/json", .object [("schema", schema)])]

/-- An answer that wraps data the way the generated controller does. -/
def envelope (description : Text) (data : Json) : Json :=
  .object [("description", .str description),
    ("content", content (.object [("type", .lit "object"),
      ("properties", .object [("success", .object [("type", .lit "boolean")]),
        ("message", .object [("type", .lit "string")]), ("data", data)])]))]

/-- An answer without content. -/
def plainAnswer (description : Text) : Json := .object [("description", .str description)]

/-- The path parameter that names a document. -/
def idParameter (cls : Text) : Json :=
  .arr [.object [("name", .lit "id"), ("in", .lit "path"), ("required", .bool true),
    ("schema", .object [("type", .lit "string")]), ("description", .str (cls ++ " ID"))]]

/-- A request body with a schema. -/
def requestBody (schemaName : Text) : Json :=
  .object [("required", .bool true), ("content", content (reference schemaName))]

/-- An operation on one document; its answer is the document, or that there is none. -/
def documentOperation (cls : Text) (summary description : Text) (more : List (String × Json)) : Json :=
  .object ([("tags", .strings [cls]), ("summary", .str summary), ("parameters", idParameter cls)] ++
    more ++
    [("responses", .object [("200", envelope description (reference cls)),
      ("404", plainAnswer (cls ++ " not found"))])])

/-- The operations on all documents. -/
def collectionPath (cls : Text) : Json :=
  .object [
    ("post", .object [("tags", .strings [cls]), ("summary", .str ("Create a new " ++ cls)),
      ("requestBody", requestBody (cls ++ "Create")),
      ("responses", .object [("201", envelope (cls ++ " created successfully") (reference cls)),
        ("400", plainAnswer "Bad request")])]),
    ("get", .object [("tags", .strings [cls]), ("summary", .str ("Get all " ++ cls ++ "s")),
      ("responses", .object [("200", envelope ("List of " ++ cls ++ "s retrieved successfully")
        (.object [("type", .lit "array"), ("items", reference cls)]))])])]

/-- The operations on one document. -/
def documentPath (cls : Text) : Json :=
  .object [
    ("get", documentOperation cls ("Get " ++ cls ++ " by ID") (cls ++ " retrieved successfully") []),
    ("patch", documentOperation cls ("Update " ++ cls) (cls ++ " updated successfully")
      [("requestBody", requestBody (cls ++ "Update"))]),
    ("delete", documentOperation cls ("Delete " ++ cls) (cls ++ " deleted successfully") [])]

/-- The paths of a module. -/
def paths (n : Names) : Json.Members :=
  Table.ofEntries [('/' :: n.folder, collectionPath n.className),
    ('/' :: n.folder ++ '/' :: ['{', 'i', 'd', '}'], documentPath n.className)]

end Scaffold.OpenApi
