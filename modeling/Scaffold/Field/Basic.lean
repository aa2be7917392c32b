import Scaffold.Text.Blank
import Scaffold.Text.Case

/-!
# Fields

A field is the one thing the generator works on: a name, two markers, a kind, and the fields nested
below it.  Every generated file is a function of a list of fields.

## Kinds

`Kind` separates what a type tag says from the attributes that make sense with it, so a field
cannot carry enumeration values on a number or an item type on a date.  The tags outside the
vocabulary are kept, because diagnostics name them, but everything else treats them as strings.

## Nesting

Only an object and a list of objects have nested fields.  `Field.IsStructuredList` is the second
case, in which the nested fields are declared under a name of their own.
-/

namespace Scaffold

/-- The tags with one fixed type in every output. -/
inductive Scalar where
  | string
  | number
  | boolean
  | date
  deriving DecidableEq, Repr

namespace Scalar

/-- All scalars. -/
def all : List Scalar := [string, number, boolean, date]

/-- The tag of a scalar. -/
def tag : Scalar → Text
  | string => "string"
  | number => "number"
  | boolean => "boolean"
  | date => "date"

/-- The scalar with a tag. -/
def ofTag? (t : Text) : Option Scalar := all.find? fun s => s.tag = t

@[simp] theorem ofTag?_tag (s : Scalar) : ofTag? s.tag = some s := by cases s <;> decide

end Scalar

/-- The tag of fields with a fixed list of values. -/
def enumTag : Text := "enum"

/-- The tag of lists. -/
def arrayTag : Text := "array"

/-- The tag of inline objects; as the target of a list it says that the items are objects. -/
def objectTag : Text := "object"

/-- The tag of references to documents of another module. -/
def objectIdTag : Text := "objectid"

/-- The vocabulary of type tags. -/
def knownTags : List Text :=
  Scalar.all.map Scalar.tag ++ [enumTag, arrayTag, objectTag, objectIdTag]

/-- A tag as written: trimmed, in lower case, the short form of a reference spelled out. -/
def normalizeTag (raw : Text) : Text :=
  let t := Text.lower (Text.trim raw)
  if t = "id".toList then objectIdTag else t

/-- What a field holds. -/
inductive Kind where
  /-- A scalar. -/
  | scalar (s : Scalar)
  /-- A tag outside the vocabulary, treated as a string. -/
  | unknown (tag : Text)
  /-- One of the listed values. -/
  | enumeration (values : Option (List Text))
  /-- A reference to a document, of a named module or of any. -/
  | reference (target : Option Text)
  /-- A list: of items with a tag, of references to a target, or of objects. -/
  | list (item target : Option Text)
  /-- An inline object. -/
  | record
  deriving DecidableEq, Repr

/-- The type tag of a kind. -/
def Kind.tag : Kind → Text
  | scalar s => s.tag
  | unknown t => t
  | enumeration _ => enumTag
  | reference _ => objectIdTag
  | list _ _ => arrayTag
  | record => objectTag

/-- The kind that a tag alone stands for. -/
def Kind.ofTag (t : Text) : Kind :=
  match Scalar.ofTag? t with
  | some s => scalar s
  | none =>
    if t = enumTag then enumeration none
    else if t = arrayTag then list none none
    else if t = objectTag then record
    else if t = objectIdTag then reference none
    else unknown t

@[simp] theorem Kind.tag_ofTag (t : Text) : (Kind.ofTag t).tag = t := by
  unfold ofTag
  split
  · rename_i s h
    have := List.find?_some h
    simpa [tag] using this
  · repeat' split
    all_goals simp_all [tag]

/-- One field of a module, possibly with nested fields.  The two markers are independent: the
required one reaches the stored document, the optional one the requests and the static types. -/
structure Field where
  name : Text
  isRequired : Bool
  isOptional : Bool
  kind : Kind
  children : List Field
  deriving Repr

namespace Field

/-- A field without nested fields. -/
def leaf (name : Text) (isRequired isOptional : Bool) (kind : Kind) : Field :=
  ⟨name, isRequired, isOptional, kind, []⟩

/-- Whether a list target says that the items are objects. -/
def targetsObject (target : Option Text) : Bool :=
  match target with
  | some t => Text.lower t = objectTag
  | none => false

/-- Whether a kind with the given nested fields makes a list of objects. -/
def structured (kind : Kind) (children : List Field) : Bool :=
  match kind with
  | .list _ target => targetsObject target && !children.isEmpty
  | _ => false

theorem structured_nil (kind : Kind) : structured kind [] = false := by
  cases kind <;> simp [structured]

/-- Whether the field is a list of objects with nested fields. -/
def isStructuredList (f : Field) : Bool := structured f.kind f.children

/-- The values of an enumeration, none for every other field. -/
def values (f : Field) : List Text :=
  match f.kind with
  | .enumeration (some vs) => vs
  | _ => []

/-- Whether the field is an enumeration with at least one value. -/
def hasValues (f : Field) : Bool := !f.values.isEmpty

/-- The storage layer manages the identity itself, so a field of that name is never shown. -/
def isIdentity (name : Text) : Bool := Text.lower name = "_id".toList

/-- The fields that appear in generated output. -/
def visible (fields : List Field) : List Field := fields.filter fun f => !isIdentity f.name

/-- The markers as they are written behind a name. -/
def markers (f : Field) : Text :=
  (if f.isRequired then ['!'] else []) ++ (if f.isOptional then ['?'] else [])

/-- A field in a log record. -/
def shown (f : Field) : Text :=
  "<Field " ++ f.name ++ f.markers ++ ":" ++ f.kind.tag ++ ">"

end Field

end Scaffold
