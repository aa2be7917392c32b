import Scaffold.Diagnostic
import Scaffold.Field.Basic
import Scaffold.Log
import Scaffold.Names
import Scaffold.Text.Quoted

/-!
# Checks of meaning

Before anything is generated the module name, the fields and the list of artifacts to leave out are
checked.  Only a bad module name is an error: every kind of field has some output, so an odd field
is generated and a warning says as what.
-/

namespace Scaffold

/-! ## Fields -/

/-- Something odd about a field; `path` leads to it through the fields it is nested in. -/
inductive Finding where
  | duplicate (name owner : Text)
  | notIdentifier (path : Text)
  | unknownType (path tag : Text)
  | unknownItemType (path item : Text)
  | noValues (path : Text)
  | repeatedValues (path : Text) (values : List Text)
  | noProperties (path : Text)
  | reservedName (path : Text)
  | requiredAndOptional (path : Text)
  deriving DecidableEq, Repr

namespace Finding

/-- The code of a finding. -/
def code : Finding → Text
  | duplicate _ _ => "duplicate_field"
  | notIdentifier _ => "field_name_not_identifier"
  | unknownType _ _ => "unknown_type"
  | unknownItemType _ _ => "unknown_array_item_type"
  | noValues _ => "empty_enum"
  | repeatedValues _ _ => "duplicate_enum_values"
  | noProperties _ => "empty_object_array"
  | reservedName _ => "reserved_field_name"
  | requiredAndOptional _ => "required_and_optional"

/-- A finding in words. -/
def message : Finding → Text
  | duplicate name owner =>
    "Field '" ++ name ++ "' is declared more than once in " ++ owner ++
      "; later declarations shadow earlier ones."
  | notIdentifier path => "Field '" ++ path ++ "' is not a valid identifier."
  | unknownType path tag =>
    "Field '" ++ path ++ "' has unknown type '" ++ tag ++ "'; it will be generated as a string."
  | unknownItemType path item =>
    "Array field '" ++ path ++ "' has unknown item type '" ++ item ++ "'; items will be strings."
  | noValues path => "Enum field '" ++ path ++ "' has no values; it will be a plain string."
  | repeatedValues path values =>
    "Enum field '" ++ path ++ "' repeats values: " ++ Text.quotedList values ++ "."
  | noProperties path =>
    "Array field '" ++ path ++
      "' declares objects without properties; it will be an untyped array."
  | reservedName path =>
    "Field '" ++ path ++
      "' collides with a timestamp/version field managed by the storage layer."
  | requiredAndOptional path =>
    "Field '" ++ path ++
      "' is marked both required and optional; validation treats it as optional, " ++
      "the model as required."

/-- The values that a finding is about. -/
def context : Finding → Json.Members
  | duplicate name _ => [Json.member "field" (.str name)]
  | notIdentifier path => [Json.member "field" (.str path)]
  | unknownType path tag => [Json.member "field" (.str path), Json.member "type" (.str tag)]
  | unknownItemType path _ => [Json.member "field" (.str path)]
  | _ => []

/-- A finding as a warning. -/
def diagnostic (f : Finding) : Diagnostic := ⟨.warning, f.code, f.message, f.context⟩

end Finding

namespace Field

/-- Names that the storage layer gives to properties of its own. -/
def reservedNames : List Text := ["createdAt", "updatedAt", "__v"]

mutual

/-- Fields whose name repeats an earlier one among the same siblings. -/
def duplicates (owner : Text) (seen : List Text) : List Field → List Finding
  | [] => []
  | f :: fs =>
    (if f.name ∈ seen then [.duplicate f.name owner] else []) ++ f.nestedDuplicates ++
      duplicates owner (f.name :: seen) fs
termination_by structural fs => fs

/-- Repeated names among the fields nested in a field. -/
def nestedDuplicates : Field → List Finding
  | ⟨name, _, _, _, children⟩ => duplicates ("'" ++ name ++ "'") [] children
termination_by structural f => f

end

mutual

/-- A field and all fields nested below it, each with the path that leads to it. -/
def walk (owner : Text) : Field → List (Text × Field)
  | ⟨name, isRequired, isOptional, kind, children⟩ =>
    let path := if owner.isEmpty then name else owner ++ '.' :: name
    (path, ⟨name, isRequired, isOptional, kind, children⟩) :: walkAll path children
termination_by structural f => f

/-- All fields of a list and below, in order, each before the fields nested in it. -/
def walkAll (owner : Text) : List Field → List (Text × Field)
  | [] => []
  | f :: fs => walk owner f ++ walkAll owner fs
termination_by structural fs => fs

end

/-- The values that occur more than once, in order of code points. -/
def repeated (values : List Text) : List Text :=
  (values.eraseDups.filter fun v => 1 < values.count v).mergeSort Text.notAfter

/-- What is odd about the kind of a field. -/
def kindFindings (path : Text) (f : Field) : List Finding :=
  match f.kind with
  | .unknown tag => [.unknownType path tag]
  | .list item target =>
    (match item with
      | some t => if t ∈ knownTags then [] else [.unknownItemType path t]
      | none => []) ++
    (if target = some objectTag ∧ f.children.isEmpty then [.noProperties path] else [])
  | .enumeration values =>
    match values.getD [] with
    | [] => [.noValues path]
    | v :: vs =>
      if (v :: vs).Nodup then [] else [.repeatedValues path (repeated (v :: vs))]
  | _ => []

/-- What is odd about one field, apart from its siblings. -/
def findings (path : Text) (f : Field) : List Finding :=
  (if Text.isIdentifier f.name then [] else [.notIdentifier path]) ++ kindFindings path f ++
    (if f.name ∈ reservedNames then [.reservedName path] else []) ++
    (if f.isRequired ∧ f.isOptional then [.requiredAndOptional path] else [])

/-- Everything odd about the fields of a module. -/
def audit (fields : List Field) : List Finding :=
  duplicates "the module" [] fields ++ (walkAll [] fields).flatMap fun (path, f) => findings path f

/-- The audit as warnings. -/
def auditDiagnostics (fields : List Field) : Diagnostics := (audit fields).map Finding.diagnostic

/-- The record of an audit. -/
def auditRecord (fields : List Field) : Log.Record :=
  ⟨.debug, .checks, "Field validation: " ++ Diagnostics.summary (auditDiagnostics fields)⟩

end Field

/-! ## Module name and artifacts -/

namespace Names

/-- A module name needs a letter or a digit; a folder that is no identifier draws a warning. -/
def audit (name : Text) : Diagnostics :=
  if (Text.trim name).isEmpty then
    [⟨.error, "empty_module_name", "Module name must not be empty.", []⟩]
  else if !name.any Text.isAsciiAlnum then
    [⟨.error, "invalid_module_name",
      "Module name '" ++ name ++ "' contains no letters or digits.", []⟩]
  else match ofRaw? name with
    | none => []
    | some names =>
      if Text.isIdentifier names.folder then []
      else
        [⟨.warning, "module_name_not_identifier",
          "Module folder '" ++ names.folder ++ "' is not a valid identifier; generated " ++
            "symbols may not compile.",
          [Json.member "module" (.str name)]⟩]

end Names

namespace Artifact

/-- A warning for every name that is no artifact. -/
def auditSkipped (skipped : List Text) : Diagnostics :=
  (skipped.filter fun name => Text.lower name ∉ all.map Artifact.name).map fun name =>
    ⟨.warning, "unknown_artifact",
      "Cannot skip unknown artifact '" ++ name ++ "'. Known kinds: " ++
        Text.join ", " (all.map Artifact.name) ++ ".",
      [Json.member "artifact" (.str name)]⟩

end Artifact

end Scaffold
