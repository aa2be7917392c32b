import Scaffold.Table
import Scaffold.Number.Shortest

/-!
# Documents

The values of a JSON document.  An object keeps its members in the order of insertion; integers are
unbounded and kept apart from double precision numbers, because they are written differently.
-/

namespace Scaffold

/-- A JSON value. -/
inductive Json where
  | null
  | bool (b : Bool)
  | int (n : Int)
  | real (x : Binary64)
  | str (s : Text)
  | arr (items : List Json)
  | obj (members : List (Text × Json))
  deriving Repr, Inhabited

namespace Json

/-- The members of an object. -/
abbrev Members := List (Text × Json)

/-- The value of a member. -/
def Members.find? (key : Text) (members : Members) : Option Json := Table.find? key members

/-- The value of a member, null when it is absent. -/
def Members.get (key : Text) (members : Members) : Json := (find? key members).getD null

/-- Sets the value of a member. -/
def Members.put (key : Text) (value : Json) (members : Members) : Members :=
  Table.put key value members

/-- Removes a member. -/
def Members.erase (key : Text) (members : Members) : Members := Table.erase key members

/-- A string value from a literal. -/
def lit (s : String) : Json := str s.toList

/-- A member from a literal key. -/
def member (key : String) (value : Json) : Text × Json := (key.toList, value)

/-- An object from members with literal keys. -/
def object (members : List (String × Json)) : Json :=
  obj (members.map fun (k, v) => (k.toList, v))

/-- A list of strings. -/
def strings (items : List Text) : Json := arr (items.map str)

/-- The value of a member of an object. -/
def get? (key : Text) : Json → Option Json
  | obj members => Table.find? key members
  | _ => none

/-- Whether a value counts as present: neither null nor false, zero or empty. -/
def isTruthy : Json → Bool
  | null => false
  | bool b => b
  | int n => n != 0
  | real (.finite _ units) => units != 0
  | real _ => true
  | str s => !s.isEmpty
  | arr items => !items.isEmpty
  | obj members => !members.isEmpty

/-- The word for the kind of a value in messages. -/
def kindName : Json → Text
  | null => "NoneType"
  | bool _ => "bool"
  | int _ => "int"
  | real _ => "float"
  | str _ => "str"
  | arr _ => "list"
  | obj _ => "dict"

/-- An optional text, null when absent. -/
def ofOption : Option Text → Json
  | none => null
  | some t => str t

end Json

end Scaffold
