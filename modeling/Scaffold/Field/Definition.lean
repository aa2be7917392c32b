import Scaffold.Check
import Scaffold.Field.Attributes

/-!
# Fields from documents

A field definition is an object with one member per attribute.  Every attribute is checked on its
own, nested definitions included, and the issues are reported in the order of the attributes, then
those of unknown members.  Whether the attributes fit together is asked only when each is fine.
-/

namespace Scaffold.Definition

/-- The names of the attributes, in the order of their checks. -/
def attributeNames : List Text :=
  ["name", "type", "is_required", "is_optional", "ref", "enum_values", "object_properties",
    "array_item_type"]

/-- The texts of a list, with the places of the others. -/
def textItems (place : List Step) (index : Nat) : List Json → Except (List Issue) (List Text)
  | [] => .ok []
  | v :: vs =>
    match Check.text v, textItems place (index + 1) vs with
    | .ok t, .ok ts => .ok (t :: ts)
    | .ok _, .error es => .error es
    | .error c, .ok _ => .error [⟨place ++ [.index index], c⟩]
    | .error c, .error es => .error (⟨place ++ [.index index], c⟩ :: es)

/-- The values of an enumeration: a list of texts or null. -/
def checkValues : Option Json → Except (List Issue) (Option (List Text))
  | none | some .null => .ok none
  | some (.arr vs) => (textItems [.key "enum_values"] 0 vs).map some
  | some _ => .error [⟨[.key "enum_values"], .notList⟩]

/-- The issues of a check that locates them itself. -/
def located {α : Type} : Except (List Issue) α → List Issue
  | .ok _ => []
  | .error es => es

/-- A field from the members of a definition and its checked nested definitions. -/
def assemble (members : Json.Members) (properties : Except (List Issue) (Option (List Field))) :
    Except (List Issue) Field :=
  let find (k : String) : Option Json := Table.find? k.toList members
  let name := Check.required Check.nonemptyText (find "name")
  let tag := Check.required Check.nonemptyText (find "type")
  let isRequired := Check.orDefault false Check.boolean (find "is_required")
  let isOptional := Check.orDefault false Check.boolean (find "is_optional")
  let target := Check.orDefault none Check.optionalText (find "ref")
  let values := checkValues (find "enum_values")
  let item := Check.orDefault none Check.optionalText (find "array_item_type")
  -- a field is built if nothing is wrong; otherwise all that is wrong is reported, in this order
  match name, tag, isRequired, isOptional, target, values, properties, item,
      Check.unknownNames attributeNames members with
  | .ok name, .ok tag, .ok isRequired, .ok isOptional, .ok target, .ok values, .ok properties,
      .ok item, [] =>
    let a : Attributes :=
      ⟨name, normalizeTag tag, isRequired, isOptional, target, values, properties,
        item.map normalizeTag⟩
    match a.build with
    | .ok f => .ok f
    | .error i => .error [⟨[], .inconsistent ("Value error, " ++ a.explain i)⟩]
  | _, _, _, _, _, _, _, _, unknown =>
    .error (Check.issues [.key "name"] name ++ Check.issues [.key "type"] tag ++
      Check.issues [.key "is_required"] isRequired ++
      Check.issues [.key "is_optional"] isOptional ++ Check.issues [.key "ref"] target ++
      located values ++ located properties ++ Check.issues [.key "array_item_type"] item ++ unknown)

/-- Issues of a nested definition, placed below its parent. -/
def underParent (index : Nat) (es : List Issue) : List Issue :=
  es.map fun e => ⟨.key "object_properties" :: .index index :: e.place, e.complaint⟩

mutual

/-- A field from its definition. -/
def field : Json → Except (List Issue) Field
  | .obj members => assemble members (nestedAmong members)
  | _ => .error [⟨[], .notObject⟩]
termination_by structural v => v

/-- The nested definitions among the members of a definition. -/
def nestedAmong : List (Text × Json) → Except (List Issue) (Option (List Field))
  | [] => .ok none
  | (k, v) :: rest => if k = "object_properties".toList then nestedList v else nestedAmong rest
termination_by structural ms => ms

/-- Nested definitions: a list or null. -/
def nestedList : Json → Except (List Issue) (Option (List Field))
  | .null => .ok none
  | .arr vs => (nestedItems 0 vs).map some
  | _ => .error [⟨[.key "object_properties"], .notList⟩]
termination_by structural v => v

/-- The fields of a list of nested definitions. -/
def nestedItems (index : Nat) : List Json → Except (List Issue) (List Field)
  | [] => .ok []
  | v :: vs =>
    match field v, nestedItems (index + 1) vs with
    | .ok f, .ok fs => .ok (f :: fs)
    | .ok _, .error es => .error es
    | .error e, .ok _ => .error (underParent index e)
    | .error e, .error es => .error (underParent index e ++ es)
termination_by structural vs => vs

end

end Scaffold.Definition
