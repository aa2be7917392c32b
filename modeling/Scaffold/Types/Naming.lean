import Scaffold.Field.Basic

/-!
# Names of declarations

Lists of objects and enumerations are declared once and referred to by name.  All outputs derive
the names from the field alone, so the declarations and the references agree:

* a list of objects `items` has the schema `itemsItemSchema` and the type `ItemsItem`;
* an enumeration `status` has the type `StatusEnum`, and below `items` the type
  `ItemsItemStatusEnum`.

`nested` lists the fields whose schemas are declared, each after those nested in it.
-/

namespace Scaffold.Field

/-- The schema of the items of a list of objects. -/
def itemSchemaNameOf (name : Text) : Text := name ++ "ItemSchema"

/-- The type of the items of a list of objects. -/
def itemTypeNameOf (name : Text) : Text := Text.capitalizeFirst name ++ "Item"

/-- The schema of the items of a list of objects. -/
def itemSchemaName (f : Field) : Text := itemSchemaNameOf f.name

/-- The type of the items of a list of objects. -/
def itemTypeName (f : Field) : Text := itemTypeNameOf f.name

/-- What the types of enumerations directly below a field start with. -/
def scopeOf (name : Text) (kind : Kind) (children : List Field) : Text :=
  if structured kind children then itemTypeNameOf name else Text.capitalizeFirst name

/-- What the types of enumerations directly below a field start with. -/
def scope (f : Field) : Text := scopeOf f.name f.kind f.children

/-- The type of an enumeration in a scope; the scope of the top level is empty. -/
def enumTypeName (scope name : Text) : Text := scope ++ Text.capitalizeFirst name ++ "Enum"

mutual

/-- The lists of objects below a field and the field itself if it is one, innermost first. -/
def nestedIn : Field → List Field
  | ⟨name, isRequired, isOptional, kind, children⟩ =>
    nested children ++
      if structured kind children then [⟨name, isRequired, isOptional, kind, children⟩] else []
termination_by structural f => f

/-- The lists of objects among fields and below them, innermost first. -/
def nested : List Field → List Field
  | [] => []
  | f :: fs => nestedIn f ++ nested fs
termination_by structural fs => fs

end

end Scaffold.Field
