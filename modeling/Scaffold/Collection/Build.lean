import Scaffold.Collection.Sample
import Scaffold.Names

/-!
# The request collection of a module

Five requests: create, list, get, update and delete.  Requests with a body carry the script that
sets its variables.
-/

namespace Scaffold.Collection

/-- The format of collections. -/
def schemaUrl : Text := "https://schema.getpostman.com/json/collection/v2.1.0/collection.json"

/-- The variable that stands for the server. -/
def baseUrl : Text := Sample.placeholder "base_url"

/-- The prefix of request paths when nothing else is set. -/
def defaultApiPrefix : Text := "/api/v1"

/-- The address of the documents of a module, or of one document. -/
def url (apiPrefix folder : Text) (withId : Bool) : Json :=
  let path := (Text.splitOn '/' apiPrefix).filter (fun p => !p.isEmpty) ++ [folder] ++
    if withId then [Sample.placeholder (folder ++ "_id")] else []
  .object [("raw", .str (baseUrl ++ '/' :: Text.join ['/'] path)), ("host", .strings [baseUrl]),
    ("path", .strings path)]

/-- A body that is sent as a document. -/
def documentBody (members : Json.Members) : Json :=
  .object [("mode", .lit "raw"), ("raw", .str (Json.pretty true 0 (.obj members))),
    ("options", .object [("raw", .object [("language", .lit "json")])])]

/-- The script that runs before a request. -/
def beforeRequest (lines : List Text) : Json :=
  .arr [.object [("listen", .lit "prerequest"),
    ("script", .object [("exec", .strings lines), ("type", .lit "text/javascript")])]]

/-- The header of requests with a body. -/
def documentHeader : Json :=
  .arr [.object [("key", .lit "Content-Type"), ("value", .lit "application/json")]]

/-- A request without a body. -/
def plainRequest (name : Text) (method : String) (address : Json) : Json :=
  .object [("name", .str name),
    ("request", .object [("method", .lit method), ("header", .arr []), ("url", address)])]

/-- A request with a body and the script for it. -/
def bodyRequest (name : Text) (method : String) (members : Json.Members) (address : Json)
    (script : List Text) : Json :=
  .object [("name", .str name),
    ("request", .object [("method", .lit method), ("header", documentHeader),
      ("body", documentBody members), ("url", address)]),
    ("event", beforeRequest script)]

/-- The requests of a module. -/
def requests (n : Names) (fields : List Field) (apiPrefix : Text) : List Json :=
  let cls := n.className
  let all := url apiPrefix n.folder false
  let one := url apiPrefix n.folder true
  let script := Sample.script [] fields
  [bodyRequest ("Create " ++ cls) "POST" (Sample.body [] fields) all script,
    plainRequest ("Get All " ++ cls ++ "s") "GET" all,
    plainRequest ("Get " ++ cls ++ " by ID") "GET" one,
    bodyRequest ("Update " ++ cls) "PATCH" (Sample.updateBody fields) one script,
    plainRequest ("Delete " ++ cls) "DELETE" one]

/-- The collection of a module. -/
def ofModule (n : Names) (fields : List Field) (apiPrefix : Text) : Json :=
  .object [("info", .object [("name", .str n.collectionFolder), ("schema", .str schemaUrl)]),
    ("item", .arr (requests n fields apiPrefix))]

end Scaffold.Collection
