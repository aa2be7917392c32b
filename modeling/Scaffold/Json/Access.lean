import Scaffold.Json.Basic

/-!
# Documents of unknown shape

Documents written by other programs are taken apart as if they had the expected shape.  Where they
have not, a `Misfit` says which value did not fit; its wording is part of the messages that users
see.
-/

namespace Scaffold

/-- A value that does not have the shape that is needed. -/
inductive Misfit where
  | notMapping (kind : Text)
  | notIterable (kind : Text)
  | noMember (kind : Text)
  | notKey (kind : Text)
  | notPair (index : Nat)
  | wrongLength (index length : Nat)
  deriving DecidableEq, Repr

/-- A misfit in words. -/
def Misfit.message : Misfit → Text
  | notMapping kind => "'" ++ kind ++ "' object is not a mapping"
  | notIterable kind => "'" ++ kind ++ "' object is not iterable"
  | noMember kind => "'" ++ kind ++ "' object has no attribute 'get'"
  | notKey kind => "unhashable type: '" ++ kind ++ "'"
  | notPair index =>
    "cannot convert dictionary update sequence element #" ++ Text.ofNat index ++ " to a sequence"
  | wrongLength index length =>
    "dictionary update sequence element #" ++ Text.ofNat index ++ " has length " ++
      Text.ofNat length ++ "; 2 is required"

namespace Json

/-- The values that a value is a sequence of: the items of a list, the characters of a string, the
keys of an object. -/
def sequence : Json → Except Misfit (List Json)
  | arr items => .ok items
  | str s => .ok (s.map fun c => str [c])
  | obj members => .ok (members.map fun m => str m.1)
  | v => .error (.notIterable v.kindName)

/-- The members of an object. -/
def mapping : Json → Except Misfit Members
  | obj members => .ok members
  | v => .error (.notMapping v.kindName)

/-- Looks up a member of what has to be an object. -/
def member? (key : Text) : Json → Except Misfit (Option Json)
  | obj members => .ok (Table.find? key members)
  | v => .error (.noMember v.kindName)

/-- The value itself, or an empty object for one that counts as absent. -/
def orEmptyObject (v : Option Json) : Json :=
  match v with
  | some v => if v.isTruthy then v else obj []
  | none => obj []

/-- The value itself, or an empty list for one that counts as absent. -/
def orEmptyList (v : Option Json) : Json :=
  match v with
  | some v => if v.isTruthy then v else arr []
  | none => arr []

/-- Whether two values are the same as keys: texts by their characters, numbers and booleans by
their numeric value. -/
def sameKey : Json → Json → Bool
  | null, null => true
  | str s, str t => s == t
  | bool a, bool b => a == b
  | bool a, int n => n == (if a then 1 else 0)
  | int n, bool a => n == (if a then 1 else 0)
  | int m, int n => m == n
  | bool a, real x => x.equalsInt (if a then 1 else 0)
  | real x, bool a => x.equalsInt (if a then 1 else 0)
  | int n, real x => x.equalsInt n
  | real x, int n => x.equalsInt n
  | real x, real y => x.sameValue y
  | _, _ => false

/-- A value that may serve as a key: anything but a list or an object. -/
def asKey : Json → Except Misfit Json
  | arr items => .error (.notKey (arr items).kindName)
  | obj members => .error (.notKey (obj members).kindName)
  | v => .ok v

/-- The text that a key is written as. -/
def keyText : Json → Text
  | null => "null"
  | bool b => if b then "true" else "false"
  | int n => Text.ofInt n
  | real x => x.text "NaN" "Infinity"
  | str s => s
  | _ => []

/-- Sets the value of a key in a table whose keys are values. -/
def putKey {α : Type} (key : Json) (value : α) : List (Json × α) → List (Json × α)
  | [] => [(key, value)]
  | (k, v) :: rest =>
    if sameKey k key then (k, value) :: rest else (k, v) :: putKey key value rest

/-- A key and a value from a sequence of two. -/
def pair (index : Nat) (v : Json) : Except Misfit (Json × Json) :=
  match sequence v with
  | .error _ => .error (.notPair index)
  | .ok [k, w] => (asKey k).map fun k => (k, w)
  | .ok vs => .error (.wrongLength index vs.length)

/-- The table of a sequence of pairs. -/
def pairs (index : Nat) (table : List (Json × Json)) :
    List Json → Except Misfit (List (Json × Json))
  | [] => .ok table
  | v :: vs =>
    match pair index v with
    | .error e => .error e
    | .ok (k, w) => pairs (index + 1) (putKey k w table) vs

/-- The members of a copy: an object is copied, and a sequence of pairs makes an object. -/
def copyMembers : Json → Except Misfit Members
  | obj members => .ok members
  | v =>
    match sequence v with
    | .error e => .error e
    | .ok vs => (pairs 0 [] vs).map fun table => table.map fun (k, w) => (keyText k, w)

end Json

end Scaffold
