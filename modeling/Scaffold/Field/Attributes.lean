import Scaffold.Field.Basic

/-!
# Attributes of a field

The attributes that describe a field one by one, as they are exchanged with the outside, and the
check that they fit together.  `Attributes.build` makes a field from consistent attributes and
`Field.attributes` lists the attributes of a field.
-/

namespace Scaffold

/-- The attributes of a field, each present or absent on its own. -/
structure Attributes where
  name : Text
  tag : Text
  isRequired : Bool := false
  isOptional : Bool := false
  target : Option Text := none
  values : Option (List Text) := none
  properties : Option (List Field) := none
  item : Option Text := none
  deriving Repr

/-- Attributes that do not fit together. -/
inductive Inconsistency where
  | valuesWithoutEnum
  | itemWithoutArray
  | propertiesWithoutNesting
  | noProperties
  | structuredWithoutTarget
  | targetWithoutReference
  deriving DecidableEq, Repr

namespace Attributes

/-- The first inconsistency of attributes. -/
def inconsistency? (a : Attributes) : Option Inconsistency :=
  if a.values.isSome && a.tag ≠ enumTag then some .valuesWithoutEnum
  else if a.item.isSome && a.tag ≠ arrayTag then some .itemWithoutArray
  else if a.properties.isSome && a.tag ≠ arrayTag && a.tag ≠ objectTag then
    some .propertiesWithoutNesting
  else if a.properties.isSome && (a.properties.getD []).isEmpty then some .noProperties
  else if a.properties.isSome && a.tag = arrayTag && a.target ≠ some objectTag then
    some .structuredWithoutTarget
  else if a.target.isSome && a.tag ≠ objectIdTag && a.tag ≠ arrayTag then
    some .targetWithoutReference
  else none

/-- An inconsistency in words. -/
def explain (a : Attributes) (i : Inconsistency) : Text :=
  "Field '" ++ a.name ++ "': " ++
    match i with
    | .valuesWithoutEnum => "enum_values set on non-enum type '" ++ a.tag ++ "'."
    | .itemWithoutArray => "array_item_type set on non-array type '" ++ a.tag ++ "'."
    | .propertiesWithoutNesting => "object_properties set on type '" ++ a.tag ++ "'."
    | .noProperties => "object_properties must be non-empty when present."
    | .structuredWithoutTarget => "structured array requires ref='object'."
    | .targetWithoutReference => "ref is not meaningful for type '" ++ a.tag ++ "'."

/-- The kind that the attributes of a tag stand for. -/
def kind (a : Attributes) : Kind :=
  match Kind.ofTag a.tag with
  | .enumeration _ => .enumeration a.values
  | .reference _ => .reference a.target
  | .list _ _ => .list a.item a.target
  | k => k

/-- The field with the given attributes, unless they are inconsistent. -/
def build (a : Attributes) : Except Inconsistency Field :=
  match a.inconsistency? with
  | some i => .error i
  | none => .ok ⟨a.name, a.isRequired, a.isOptional, a.kind, a.properties.getD []⟩

end Attributes

/-- The attributes of a field. -/
def Field.attributes (f : Field) : Attributes where
  name := f.name
  tag := f.kind.tag
  isRequired := f.isRequired
  isOptional := f.isOptional
  target := match f.kind with
    | .reference t => t
    | .list _ t => t
    | _ => none
  values := match f.kind with
    | .enumeration vs => vs
    | _ => none
  properties := if f.children.isEmpty then none else some f.children
  item := match f.kind with
    | .list i _ => i
    | _ => none

end Scaffold
