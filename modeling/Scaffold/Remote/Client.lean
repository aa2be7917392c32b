import Scaffold.Collection.Merge
import Scaffold.Json.Reader
import Scaffold.Names
import Scaffold.World.Basic

/-!
# Calling the remote service

A client knows the address of the service and the key for it.  The shared collection is fetched as a
whole, changed, and written back as a whole.
-/

namespace Scaffold

/-- The address of the remote service and the key for it. -/
structure Client where
  key : Text
  address : Text
  deriving DecidableEq, Repr

namespace Client

/-- The address when nothing else is set. -/
def defaultAddress : Text := "https://api.getpostman.com"

/-- A client; there has to be a key. -/
def ofKey (key address : Text) : Except Failure Client :=
  match key with
  | [] => .error .noApiKey
  | c :: rest => .ok ⟨c :: rest, Text.dropRightWhile (· == '/') address⟩

/-- The document in the body of an answer; a byte order mark in front of it does not count. -/
def bodyDocument (body : Text) : Except Json.ParseError Json :=
  match body with
  | '\uFEFF' :: rest => Json.parse rest
  | body => Json.parse body

/-- What a call returns, given the answer to its request. -/
def outcome (method : Method) (path : Text) : Reply → Except RemoteFault Json
  | .failure reason => .error (.unreachable method path reason)
  | .response status body =>
    -- the body is read in any case, since a refusal says its reason there
    match decide (200 ≤ status ∧ status < 300), bodyDocument body with
    | true, .ok document => .ok document
    | true, .error _ => .error (.notDocument method path status body)
    | false, .ok document => .error (.refused method path status document)
    | false, .error _ => .error (.refused method path status (.str body))

/-- Sends a request with a body. -/
def send (c : Client) (method : Method) (path : Text) (sent : Json) (body : Text) : Act Json :=
  Act.ofFunction fun w =>
    let (reply, remote) := w.remote.answer method sent
    let request : Request := ⟨method, c.address ++ path, c.key, body⟩
    ((outcome method path reply).mapError .remote,
      { w with remote, requests := w.requests ++ [request] })

/-- The path of a collection. -/
def collectionPath (id : Text) : Text := "/collections/" ++ id

/-- Fetches the shared collection. -/
def fetch (c : Client) (id : Text) : Act Json.Members := do
  Act.say [⟨.info, .remote, "Fetching collection from Postman API: " ++ id⟩]
  let answer ← c.send .get (collectionPath id) .null []
  match answer.get? "collection" with
  | some (.obj members) => return members
  | _ => throw (.remote (.noCollection answer))

/-- Writes the shared collection; an infinite number in it cannot be sent. -/
def store (c : Client) (id : Text) (collection : Json.Members) : Act Unit := do
  let body := Remote.collectionBody (.obj collection)
  if body.isFinite then
    let _ ← c.send .put (collectionPath id) (.obj collection) body.compact
  else throw .infiniteNumber

/-- Puts requests into a folder of a collection. -/
def replaceFolder (collection : Json.Members) (name : Text) (items : List Json) :
    Act Json.Members := do
  Act.say [Collection.folderRecord collection name]
  let update ← Act.ofFit (Collection.replaceFolder collection name items)
  Act.say ((update.merged?.map Collection.Merged.records).getD [])
  return update.collection

/-- Replaces the folder of a module in the shared collection by the requests of a collection, and
returns what was sent. -/
def updateFolder (c : Client) (id : Text) (n : Names) (collection : Json) : Act Json.Members := do
  let remote ← c.fetch id
  Act.say (Collection.acceptRecords remote)
  let accepted := Collection.acceptVariables remote
  let items ← Act.ofFit (do Json.sequence ((← collection.member? "item").getD (.arr [])))
  let updated ← replaceFolder accepted n.collectionFolder items
  Act.say [⟨.info, .remote, "Sending PUT request to Postman API..."⟩]
  c.store id updated
  Act.say [⟨.info, .remote, "Postman collection updated successfully via API."⟩]
  return updated

end Client

end Scaffold
