import Scaffold.Check

/-!
# Raw values

What a place gives to a setting before it is checked.  Most raw values are values of documents, but a reader
of settings files may know other ones, such as dates, and what is given for one run may be anything.  Of a
value that no document has it only counts what the checks make of it.
-/

namespace Scaffold

/-- A value that no document has, by what the checks make of it. -/
structure Foreign where
  text : Except Complaint Text
  boolean : Except Complaint Bool
  number : Except Complaint Binary64

/-- A value that is neither a text nor a boolean nor a number. -/
def Foreign.other : Foreign := ⟨.error .notText, .error .notBoolean, .error .notNumber⟩

/-- A raw value. -/
inductive Raw where
  | plain (v : Json)
  | foreign (f : Foreign)

namespace Raw

/-- Keys with raw values. -/
abbrev Members := List (Text × Raw)

/-- The members of a document. -/
def ofMembers (members : Json.Members) : Members := members.map fun (key, v) => (key, plain v)

/-- The value, if documents have it. -/
def plain? : Raw → Option Json
  | plain v => some v
  | foreign _ => none

/-! ## Checks -/

/-- A text. -/
def text : Raw → Except Complaint Text
  | plain v => Check.text v
  | foreign f => f.text

/-- A text of at least one character. -/
def nonemptyText : Raw → Except Complaint Text
  | plain v => Check.nonemptyText v
  | foreign f =>
    match f.text with
    | .ok [] => .error .emptyText
    | x => x

/-- A text or null. -/
def optionalText : Raw → Except Complaint (Option Text)
  | plain v => Check.optionalText v
  | foreign f => f.text.map some

/-- A boolean. -/
def boolean : Raw → Except Complaint Bool
  | plain v => Check.boolean v
  | foreign f => f.boolean

/-- A number greater than zero. -/
def positiveNumber : Raw → Except Complaint Binary64
  | plain v => Check.positiveNumber v
  | foreign f =>
    match f.number with
    | .ok x => if x.isPositive then .ok x else .error .tooSmall
    | .error c => .error c

end Raw

end Scaffold
