import Scaffold.Json.Notation
import Scaffold.Json.Writer

/-!
# The remote service

The shared request collection lives on a server.  A `Remote` answers requests one after another,
either from a collection that it stores or from a script, so a statement about every behaviour of
the server is a statement about every `Remote`.
-/

namespace Scaffold

/-- The methods that are used. -/
inductive Method where
  | get
  | put
  deriving DecidableEq, Repr

/-- The name of a method. -/
def Method.name : Method → Text
  | get => "GET"
  | put => "PUT"

/-- A request as it goes out. -/
structure Request where
  method : Method
  url : Text
  key : Text
  body : Text
  deriving DecidableEq, Repr

/-- An answer: a status with a body, or a failure of the connection. -/
inductive Reply where
  | response (status : Nat) (body : Text)
  | failure (reason : Text)
  deriving DecidableEq, Repr

/-- A server. -/
inductive Remote where
  /-- Answers with the collection of the last write. -/
  | store (collection : Json)
  /-- Answers from a list, and fails when it is used up. -/
  | script (replies : List Reply)

namespace Remote

/-- The body of an answer with a collection. -/
def collectionBody (collection : Json) : Json := .object [("collection", collection)]

/-- The answer to a request and the server after it.  `sent` is the collection of a write. -/
def answer (r : Remote) (method : Method) (sent : Json) : Reply × Remote :=
  match r, method with
  | store c, .get => (.response 200 (collectionBody c).compact, store c)
  | store _, .put => (.response 200 (collectionBody sent).compact, store sent)
  | script [], _ => (.failure "no response scripted", script [])
  | script (reply :: rest), _ => (reply, script rest)

end Remote

/-- Why a call of the remote service failed. -/
inductive RemoteFault where
  | unreachable (method : Method) (path reason : Text)
  | refused (method : Method) (path : Text) (status : Nat) (payload : Json)
  | notDocument (method : Method) (path : Text) (status : Nat) (body : Text)
  | noCollection (payload : Json)

namespace RemoteFault

/-- A fault in words. -/
def message : RemoteFault → Text
  | unreachable method path reason => method.name ++ " " ++ path ++ " failed: " ++ reason
  | refused method path status payload =>
    method.name ++ " " ++ path ++ " returned " ++ Text.ofNat status ++ ": " ++ payload.messageText
  | notDocument method path _ _ => method.name ++ " " ++ path ++ " returned a non-JSON body."
  | noCollection _ => "Postman API response has no 'collection' object."

/-- The status of the answer, if there was one that counts. -/
def status? : RemoteFault → Option Nat
  | refused _ _ status _ => some status
  | notDocument _ _ status _ => some status
  | _ => none

/-- What the server sent. -/
def payload : RemoteFault → Json
  | unreachable _ _ _ => .null
  | refused _ _ _ payload => payload
  | notDocument _ _ _ body => .str body
  | noCollection payload => payload

end RemoteFault

end Scaffold
