import Scaffold.Diagnostic
import Scaffold.Field.Basic
import Scaffold.Log

/-!
# Field tokens

Fields are given on the command line, one per token:

* `name:type` and `name:type:target`, a plain field or a reference;
* `name:array:item` and `name:array:item:target`, a list of scalars or references;
* `name:array:object:p:t:q:u`, a list of objects with the properties `p` and `q`;
* `name[a,b]` and `name:enum[a,b]`, an enumeration.

A name may carry the markers `?` and `!` in any order and number.  A token outside the grammar is
dropped with a `Remark` that says why; nothing is dropped without one except the identity field,
which the storage layer supplies.
-/

namespace Scaffold

/-- Why a token or a part of one was dropped. -/
inductive Remark where
  | emptyName (token : Text)
  | emptyPropertyName (token : Text)
  | notAField (token : Text)
  | noType (token : Text)
  | propertyWithoutType (name token : Text)
  | danglingProperty (raw token : Text)
  | propertiesDisabled (name token : Text)
  | targetIgnored (target name token : Text)
  deriving DecidableEq, Repr

namespace Remark

/-- Only an ignored target is no warning. -/
def severity : Remark → Severity
  | targetIgnored _ _ _ => .info
  | _ => .warning

/-- The code of a remark. -/
def code : Remark → Text
  | emptyName _ | emptyPropertyName _ => "empty_name"
  | notAField _ | noType _ => "skipped_token"
  | propertyWithoutType _ _ => "empty_type"
  | danglingProperty _ _ => "dangling_property"
  | propertiesDisabled _ _ => "depth_exceeded"
  | targetIgnored _ _ _ => "ignored_ref"

/-- A remark in words. -/
def message : Remark → Text
  | emptyName token => "Token '" ++ token ++ "' has an empty field name."
  | emptyPropertyName token => "Property with empty name in '" ++ token ++ "' was ignored."
  | notAField token => "Token '" ++ token ++ "' is not a field definition and was ignored."
  | noType token => "Token '" ++ token ++ "' has no type and was ignored."
  | propertyWithoutType name token =>
    "Property '" ++ name ++ "' in '" ++ token ++ "' has no type and was ignored."
  | danglingProperty raw token =>
    "Property '" ++ raw ++ "' in '" ++ token ++ "' has no type and was ignored."
  | propertiesDisabled name _ =>
    "Properties of '" ++ name ++ "' were ignored: object flattening is disabled."
  | targetIgnored target name _ =>
    "Reference '" ++ target ++ "' on '" ++ name ++ "' ignored: only objectid fields take a ref."

/-- The token that a remark is about. -/
def token : Remark → Text
  | emptyName t | emptyPropertyName t | notAField t | noType t => t
  | propertyWithoutType _ t | danglingProperty _ t | propertiesDisabled _ t => t
  | targetIgnored _ _ t => t

/-- A remark as a diagnostic. -/
def diagnostic (r : Remark) : Diagnostic :=
  ⟨r.severity, r.code, r.message, [Json.member "token" (.str r.token)]⟩

end Remark

namespace Token

/-! ## Parts of a token -/

/-- A name and what its markers say. -/
structure Decorated where
  name : Text
  isOptional : Bool
  isRequired : Bool
  deriving DecidableEq, Repr

/-- Whether a character is a marker. -/
def isMarker (c : Char) : Bool := c == '?' || c == '!'

/-- Takes the markers off the end of a name. -/
def undecorate (raw : Text) : Decorated :=
  let trimmed := Text.trim raw
  let markers := trimmed.reverse.takeWhile isMarker
  ⟨Text.trim (Text.dropRightWhile isMarker trimmed), markers.contains '?', markers.contains '!'⟩

/-- The values between commas, trimmed, without empty ones. -/
def values (raw : Text) : List Text :=
  ((Text.splitOn ',' raw).map Text.trim).filter fun v => !v.isEmpty

/-- The text of `enum[…]`, in any case. -/
def enumBody? (tag : Text) : Option Text :=
  if Text.lower (tag.take 5) = "enum[".toList then
    match (tag.drop 5).dropWhile (· != ']') with
    | [']'] => some ((tag.drop 5).takeWhile (· != ']'))
    | _ => none
  else none

/-- Name and values of `name[…]`.  One newline after the bracket is overlooked. -/
def shorthand? (token : Text) : Option (Text × Text) :=
  let word := token.takeWhile Text.isAsciiWord
  let afterWord := token.dropWhile Text.isAsciiWord
  let markers := afterWord.takeWhile isMarker
  match word, afterWord.dropWhile isMarker with
  | _ :: _, '[' :: rest =>
    match rest.takeWhile (· != ']'), rest.dropWhile (· != ']') with
    | body@(_ :: _), [']'] => some (word ++ markers, body)
    | body@(_ :: _), [']', '\n'] => some (word ++ markers, body)
    | _, _ => none
  | _, _ => none

/-- The forms of a token before its parts are read. -/
inductive Form where
  | shorthand (name values : Text)
  | parts (name tag : Text) (more : List Text)
  | other
  deriving DecidableEq, Repr

/-- The form of a token. -/
def form (token : Text) : Form :=
  match shorthand? token with
  | some (name, values) => .shorthand name values
  | none =>
    match Text.splitOn ':' token with
    | name :: tag :: more => .parts name tag more
    | _ => .other

/-- A field with the name and the markers of a decorated name. -/
def Decorated.field (d : Decorated) (kind : Kind) (children : List Field) : Field :=
  ⟨d.name, d.isRequired, d.isOptional, kind, children⟩

/-- The enumeration with the given values; without any it has none at all. -/
def enumeration (vs : List Text) : Kind :=
  .enumeration (if vs.isEmpty then none else some vs)

/-- A text that may be absent: the empty one counts as absent. -/
def present (t : Text) : Option Text := if t.isEmpty then none else some t

/-! ## Reading one token -/

/-- What a token, or a property in one, is read as: at most one field, and the remarks. -/
structure Reading where
  field? : Option Field
  remarks : List Remark

/-- One property of a list of objects. -/
def readProperty (token rawName rawTag : Text) : Reading :=
  let d := undecorate rawName
  if d.name.isEmpty then ⟨none, [.emptyPropertyName token]⟩
  else if Field.isIdentity d.name then ⟨none, []⟩
  else match enumBody? (Text.trim rawTag) with
    | some body => ⟨some (d.field (enumeration (values body)) []), []⟩
    | none =>
      let tag := normalizeTag rawTag
      if tag.isEmpty then ⟨none, [.propertyWithoutType d.name token]⟩
      else ⟨some (d.field (.ofTag tag) []), []⟩

/-- The properties of a list of objects, from alternating names and types. -/
def readProperties (token : Text) : List Text → List Field × List Remark
  | [] => ([], [])
  | [dangling] => ([], [.danglingProperty dangling token])
  | name :: tag :: rest =>
    let r := readProperty token name tag
    let (fs, rs) := readProperties token rest
    (r.field?.toList ++ fs, r.remarks ++ rs)

/-- A list of objects, with its properties unless nesting is disabled. -/
def readObjects (depth : Int) (token : Text) (d : Decorated) (properties : List Text) : Reading :=
  let kind : Kind := .list none (some objectTag)
  if depth < 1 && !properties.isEmpty then
    ⟨some (d.field kind []), [.propertiesDisabled d.name token]⟩
  else
    let (fs, rs) := readProperties token properties
    ⟨some (d.field kind fs), rs⟩

/-- A field whose tag is neither an enumeration with values nor a list of something. -/
def readPlain (token : Text) (d : Decorated) (tag : Text) (more : List Text) : Reading :=
  let target := Text.trim (more.headD [])
  match Kind.ofTag tag with
  | .reference _ => ⟨some (d.field (.reference (present target)) []), []⟩
  | kind =>
    ⟨some (d.field kind []), if target.isEmpty then [] else [.targetIgnored target d.name token]⟩

/-- A token of the form `name:type…` with a name. -/
def readParts (depth : Int) (token : Text) (d : Decorated) (rawTag : Text) (more : List Text) :
    Reading :=
  match enumBody? (Text.trim rawTag) with
  | some body => ⟨some (d.field (enumeration (values body)) []), []⟩
  | none =>
    let tag := normalizeTag (Text.trim rawTag)
    if tag.isEmpty then ⟨none, [.noType token]⟩
    else if tag = arrayTag then
      match more with
      | [] => readPlain token d tag []
      | item :: rest =>
        if Text.lower (Text.trim item) = objectTag then readObjects depth token d rest
        else
          -- anything behind the target is ignored
          let target := Text.trim (rest.headD [])
          ⟨some (d.field (.list (present (normalizeTag item)) (present target)) []), []⟩
    else readPlain token d tag more

/-- One token. -/
def read (depth : Int) (token : Text) : Reading :=
  match form token with
  | .shorthand name vs =>
    let d := undecorate name
    if d.name.isEmpty then ⟨none, [.emptyName token]⟩
    else if Field.isIdentity d.name then ⟨none, []⟩
    else ⟨some (d.field (enumeration (values vs)) []), []⟩
  | .parts name tag more =>
    let d := undecorate name
    if d.name.isEmpty then ⟨none, [.emptyName token]⟩
    else if Field.isIdentity d.name then ⟨none, []⟩
    else readParts depth token d tag more
  | .other => ⟨none, [.notAField token]⟩

end Token

/-! ## Reading all tokens -/

/-- What the tokens of one module ask for. -/
structure Parsed where
  fields : List Field
  skipped : List Text
  upload : Bool
  remarks : List Remark

namespace Parsed

/-- The token after which artifacts to leave out are named. -/
def skipToken : Text := "--skip"

/-- The tokens that ask for file upload. -/
def uploadTokens : List Text := ["file:true", "--file:true"]

/-- Reads tokens in order; `skipping` tells whether the artifacts to leave out have begun. -/
def readTokens (depth : Int) (skipping : Bool) : List Text → Parsed
  | [] => ⟨[], [], false, []⟩
  | token :: rest =>
    if token = skipToken then readTokens depth true rest
    else
      let more := readTokens depth skipping rest
      if token ∈ uploadTokens then { more with upload := true }
      else if skipping then { more with skipped := token :: more.skipped }
      else
        let r := Token.read depth token
        { more with fields := r.field?.toList ++ more.fields, remarks := r.remarks ++ more.remarks }

/-- Reads all tokens of a module; lists of objects take properties. -/
def ofTokens (tokens : List Text) : Parsed := readTokens 1 false tokens

/-- The remarks as diagnostics. -/
def diagnostics (p : Parsed) : Diagnostics := p.remarks.map Remark.diagnostic

/-- The record of what became of one field token. -/
def tokenRecord (depth : Int) (token : Text) : List Log.Record :=
  match (Token.read depth token).field?, Token.form token with
  | some f, _ =>
    [⟨.debug, .tokens, "Parsed field " ++ f.shown ++ " from '" ++ token ++ "'."⟩]
  | none, .parts name _ _ =>
    if Field.isIdentity (Token.undecorate name).name then
      [⟨.debug, .tokens, "Ignoring '" ++ token ++ "': the identity field is always generated."⟩]
    else []
  | none, _ => []

/-- The records of reading tokens in order. -/
def tokenRecords (depth : Int) (skipping : Bool) : List Text → List Log.Record
  | [] => []
  | token :: rest =>
    if token = skipToken then tokenRecords depth true rest
    else
      (if token ∈ uploadTokens || skipping then [] else tokenRecord depth token) ++
        tokenRecords depth skipping rest

/-- The records of reading all tokens. -/
def records (tokens : List Text) : List Log.Record :=
  let p := ofTokens tokens
  tokenRecords 1 false tokens ++
    [⟨.info, .tokens, "Parsed " ++ Text.ofNat p.fields.length ++ " field(s), " ++
      Text.ofNat p.skipped.length ++ " skipped artifact(s)" ++
      (if p.upload then ", file upload enabled".toList else []) ++ "."⟩]

end Parsed

end Scaffold
