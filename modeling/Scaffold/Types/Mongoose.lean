import Scaffold.Types.Literal
import Scaffold.Types.Naming

/-!
# Stored documents

The type of a field in a Mongoose schema, and the expression that adds the modifiers of the field.
Modifiers go into a literal that starts with a type; a list literal is first wrapped into one, and
any other literal takes none.
-/

namespace Scaffold.Mongoose

/-- The stored type of a scalar. -/
def scalarName : Scalar → Text
  | .string => "String"
  | .number => "Number"
  | .boolean => "Boolean"
  | .date => "Date"

/-- The stored type of a tag; a tag that is no scalar is stored as a string. -/
def itemName (tag : Text) : Text :=
  match Scalar.ofTag? tag with
  | some s => scalarName s
  | none => "String"

/-- A literal that consists of a type, and what follows it. -/
def typeLiteral (type : Text) (more : Text) : Text := Text.braced ("type: " ++ type ++ more)

/-- The module that a reference points to. -/
def targetAttribute : Option Text → Text
  | none | some [] => []
  | some target => ", ref: '" ++ target ++ "'"

/-- The type of a list that has no item type of its own. -/
def listType (item target : Option Text) : Text :=
  match item with
  | none | some [] =>
    if target.isNone || target = some [] || Field.targetsObject target then
      typeLiteral "[Schema.Types.Mixed]" []
    else typeLiteral "[Schema.Types.ObjectId]" (targetAttribute target)
  | some tag =>
    if tag = objectIdTag then typeLiteral "[Schema.Types.ObjectId]" (targetAttribute target)
    else typeLiteral ('[' :: itemName tag ++ [']']) []

/-- The type of an enumeration. -/
def enumType (values : List Text) : Text :=
  if values.isEmpty then typeLiteral "String" []
  else typeLiteral "String" (", enum: " ++ Literal.list values)

/-- The modifiers of a field: whether it is required and, on demand, the first value of an
enumeration as its default. -/
def modifiers (withDefault isRequired : Bool) (kind : Kind) : List Text :=
  (if isRequired then ["required: true".toList] else []) ++
    match withDefault, kind with
    | true, .enumeration (some (v :: _)) => ["default: " ++ Literal.quote v]
    | _, _ => []

/-- How a literal that starts with a type begins. -/
def typeOpening : Text := "\x7b type:"

/-- A literal with modifiers. -/
def modified (literal : Text) (mods : List Text) : Text :=
  if mods.isEmpty then literal
  else if Text.startsWith ['['] literal then
    typeLiteral literal (", " ++ Text.join ", " mods)
  else if Text.startsWith typeOpening literal then
    literal.take (literal.length - 2) ++ ", " ++ Text.join ", " mods ++ [' ', '}']
  else literal

mutual

/-- The type of a field in a schema. -/
def type : Field → Text
  | ⟨name, _, _, kind, children⟩ =>
    match kind with
    | .enumeration values => enumType (values.getD [])
    | .reference target => typeLiteral "Schema.Types.ObjectId" (targetAttribute target)
    | .list item target =>
      if Field.structured kind children then '[' :: Field.itemSchemaNameOf name ++ [']']
      else listType item target
    | .record =>
      if children.isEmpty then typeLiteral "Schema.Types.Mixed" []
      else Text.braced (Text.join ", " (properties children))
    | .scalar s => typeLiteral (scalarName s) []
    | .unknown _ => typeLiteral "String" []
termination_by structural f => f

/-- The visible properties of an inline object. -/
def properties : List Field → List Text
  | [] => []
  | f :: fs =>
    (if Field.isIdentity f.name then []
      else [f.name ++ ": " ++ modified (type f) (modifiers false f.isRequired f.kind)]) ++
      properties fs
termination_by structural fs => fs

end

/-- The expression of a field in a schema: its type with its modifiers. -/
def expression (withDefault : Bool) (f : Field) : Text :=
  modified (type f) (modifiers withDefault f.isRequired f.kind)

end Scaffold.Mongoose
