import Scaffold.Field.Basic
import Scaffold.Recovery.Blocks
import Scaffold.Recovery.Properties
import Scaffold.Recovery.SchemaEntry

/-!
# Fields from generated files

The fields of a module that is already on disk are read back from its interface and model files.
The interface gives names, optional markers and types; enumerations and nested interfaces are
followed by name; the model adds the values, targets and required marks of the top level.

Inline objects are read recursively.  The text of a nested type is shorter than the text around it,
so the length of a type bounds how deep the reading goes.
-/

namespace Scaffold.Recovery

/-- What type names stand for. -/
structure Scope where
  enums : List (Text × List Text)
  nested : List (Text × List Field)

/-- The scalar or reference tag that a type text is closest to: the first one whose name occurs in
it, else a string. -/
def closestTag (type : Text) : Text :=
  let t := Text.trim (Text.lower type)
  ((Scalar.all.map Scalar.tag ++ [objectIdTag]).find? fun tag => Text.occurs tag t).getD
    Scalar.string.tag

/-- The inside of a text in quotes that holds no quotes. -/
def quoted? (s : Text) : Option Text :=
  match s with
  | quote :: rest =>
    match rest.dropWhile fun c => !isPlainQuote c with
    | [_] => if isPlainQuote quote then some (rest.takeWhile fun c => !isPlainQuote c) else none
    | _ => none
  | [] => none

/-- The values of a union of quoted texts. -/
def unionLiterals? (type : Text) : Option (List Text) :=
  if '|' ∈ type then (Text.splitOn '|' type).mapM fun part => quoted? (Text.trim part) else none

/-- The kind of a list whose items have a type. -/
def listKind (scope : Scope) (base : Text) : Kind × List Field :=
  match Table.find? base scope.nested with
  | some children => (.list none (some objectTag), children)
  | none =>
    if base = "any".toList ∨ base = "unknown".toList then (.list none none, [])
    else (.list (some (closestTag base)) none, [])

/-- The kind that a type text with a name for it stands for, where the model has been asked. -/
def namedKind? (scope : Scope) (entry : Option SchemaEntry) (type : Text) :
    Option (Kind × List Field) :=
  match Table.find? type scope.enums with
  | some values => some (.enumeration (some values), [])
  | none =>
    match entry with
    | some ⟨v :: vs, _, _⟩ => some (.enumeration (some (v :: vs)), [])
    | _ =>
      -- what the model lists comes before a union that the interface spells out
      match unionLiterals? type with
      | some values => some (.enumeration (some values), [])
      | none =>
        let target := entry.bind SchemaEntry.target
        if Text.occurs "objectid" (Text.lower type) then
          if Text.endsWith "[]" type then some (.list (some objectIdTag) target, [])
          else some (.reference target, [])
        else if Text.endsWith "[]" type then
          some (listKind scope (Text.trim (type.take (type.length - 2))))
        else (Table.find? type scope.nested).map fun children => (.record, children)

/-- Whether a type text is an inline object. -/
def isInlineObject (type : Text) : Bool := Text.startsWith ['{'] type && Text.endsWith ['}'] type

/-- The text between the braces of an inline object. -/
def inlineBody (type : Text) : Text := (type.drop 1).dropLast

/-- The kind of a type text that is neither named nor an inline object. -/
def plainKind (type : Text) : Kind :=
  if Text.startsWith "record<" (Text.lower type) then .record else .ofTag (closestTag type)

/-- A field from a property, nested at most `bound` deep. -/
def fieldWithin (bound : Nat) (scope : Scope) (entry : Option SchemaEntry) (p : Property) : Field :=
  let type := Text.trim p.type
  let isRequired := match entry with
    | some e => e.isRequired
    | none => !p.isOptional
  let (kind, children) : Kind × List Field :=
    match namedKind? scope entry type, bound with
    | some found, _ => found
    | none, bound + 1 =>
      if isInlineObject type then
        (.record, (properties (inlineBody type)).map (fieldWithin bound scope none))
      else (plainKind type, [])
    -- an inline object is longer than the types in it, so `fieldOf` cuts none short here
    | none, 0 => (plainKind type, [])
  ⟨p.name, isRequired, p.isOptional, kind, children⟩

/-- A field from a property and what the model says about it. -/
def fieldOf (scope : Scope) (entry : Option SchemaEntry) (p : Property) : Field :=
  fieldWithin p.type.length scope entry p

/-- The properties that the storage layer adds. -/
def suppliedNames : List Text := ["_id", "createdAt", "updatedAt"]

/-- The interface of the document: the first one with an identity, else the first one that is named
like an interface. -/
def mainInterface? (is : List (Text × Text)) : Option (Text × Text) :=
  (is.find? fun (_, body) => Text.occurs "_id" body && Text.occurs "Types.ObjectId" body) <|>
    is.find? fun (name, _) => Text.startsWith ['I'] name

/-- Whether an interface describes nested data. -/
def isNestedName (main name : Text) : Bool :=
  name ≠ main && !Text.occurs "Model" name && !Text.occurs "Type" name &&
    !Text.endsWith "Filterables" name

/-- The nested interfaces with their fields. -/
def nestedInterfaces (enums : List (Text × List Text)) (main : Text) (is : List (Text × Text)) :
    List (Text × List Field) :=
  Table.ofEntries (is.filterMap fun (name, body) =>
    if isNestedName main name then
      match ((properties body).filter fun p => p.name ≠ "_id".toList).map
          (fieldOf ⟨enums, []⟩ none) with
      | [] => none
      | f :: fs => some (name, f :: fs)
    else none)

/-- The part of a model file that describes the document. -/
def mainSchema (model : Text) : Text :=
  match Text.cut? "new Schema<" model with
  | some (_, schema) => schema
  | none => model

/-- The fields that the interface and the model file of a module describe. -/
def fields (interface model : Text) : List Field :=
  let bs := blocks interface
  let is := interfaces bs
  match mainInterface? is with
  | none => []
  | some (main, body) =>
    let enums := enumerations bs
    let scope : Scope := ⟨enums, nestedInterfaces enums main is⟩
    let schema := mainSchema model
    ((properties body).filter fun p => p.name ∉ suppliedNames).map fun p =>
      fieldOf scope (schemaOf? p.name schema) p

end Scaffold.Recovery
