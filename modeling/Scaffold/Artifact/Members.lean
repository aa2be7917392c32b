import Scaffold.Table
import Scaffold.Types.Literal

/-!
# Keys of enumeration members

The key of a member comes from its value.  When a key is taken, a number is appended, counted up
from two until the key is free; a count is kept for every key, so the numbers never go back.
-/

namespace Scaffold.Members

/-- A key with a number. -/
def numbered (base : Text) (k : Nat) : Text := base ++ '_' :: Text.ofNat k

/-- The least number above `count` whose key is free.  Among one more candidate than there are keys
in use one is free, so the search always ends with a find. -/
def freeNumber (used : List (Text × Nat)) (base : Text) (count : Nat) : Nat :=
  ((List.range' (count + 1) (used.length + 1)).find? fun k => numbered base k ∉ Table.keys used).getD
    (count + used.length + 2)

/-- The key of the next value, and the keys in use after it. -/
def nextKey (used : List (Text × Nat)) (base : Text) : Text × List (Text × Nat) :=
  match Table.find? base used with
  | none => (base, used ++ [(base, 1)])
  | some count =>
    let k := freeNumber used base count
    (numbered base k, Table.put base k used ++ [(numbered base k, 1)])

/-- The members of an enumeration, given the keys in use. -/
def assign (used : List (Text × Nat)) : List Text → List (Text × Text)
  | [] => []
  | value :: values =>
    let (key, used) := nextKey used (Literal.enumKey value)
    (key, value) :: assign used values

/-- The members of an enumeration: a key for every value. -/
def ofValues (values : List Text) : List (Text × Text) := assign [] values

end Scaffold.Members
