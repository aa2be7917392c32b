import Scaffold.Json.Reader
import Scaffold.Text.Blank
import Scaffold.Text.Case

/-!
# Checking data from outside

Field definitions and settings arrive as documents.  A check turns a value into what it should be
or says what is wrong with it; an `Issue` adds where in the data the value stands.  Checks of
separate values are independent, so all their issues are reported together.
-/

namespace Scaffold

/-- A step into nested data. -/
inductive Step where
  | key (name : Text)
  | index (n : Nat)
  deriving DecidableEq, Repr

/-- What is wrong with a value. -/
inductive Complaint where
  | missing
  | unknownName
  | notText
  | emptyText
  | notBoolean
  | unreadableBoolean
  | notNumber
  | unreadableNumber
  | tooSmall
  | notList
  | notObject
  | notPath
  | unknownAttribute
  | inconsistent (message : Text)
  deriving DecidableEq, Repr

/-- The code of a complaint. -/
def Complaint.code : Complaint → Text
  | missing => "missing"
  | unknownName => "extra_forbidden"
  | notText => "string_type"
  | emptyText => "string_too_short"
  | notBoolean => "bool_type"
  | unreadableBoolean => "bool_parsing"
  | notNumber => "float_type"
  | unreadableNumber => "float_parsing"
  | tooSmall => "greater_than"
  | notList => "list_type"
  | notObject => "model_type"
  | notPath => "path_type"
  | unknownAttribute => "no_such_attribute"
  | inconsistent _ => "value_error"

/-- A complaint about the value at a place. -/
structure Issue where
  place : List Step
  complaint : Complaint
  deriving DecidableEq, Repr

namespace Check

/-- A text. -/
def text : Json → Except Complaint Text
  | .str s => .ok s
  | _ => .error .notText

/-- The text of a path. -/
def path : Json → Except Complaint Text
  | .str s => .ok s
  | _ => .error .notPath

/-- A text of at least one character. -/
def nonemptyText : Json → Except Complaint Text
  | .str [] => .error .emptyText
  | .str s => .ok s
  | _ => .error .notText

/-- A text or null. -/
def optionalText : Json → Except Complaint (Option Text)
  | .null => .ok none
  | v => (text v).map some

/-- Words for true, in lower case. -/
def trueWords : List Text := ["1", "t", "y", "yes", "on", "true"]

/-- Words for false, in lower case. -/
def falseWords : List Text := ["0", "f", "n", "no", "off", "false"]

/-- ASCII lower case, in which words for booleans and numbers are compared. -/
def asciiLower (t : Text) : Text :=
  t.map fun c => if Text.isAsciiUpper c then Char.ofNat (c.toNat + 32) else c

/-- A boolean, one of the numbers zero and one, or a word for it. -/
def boolean : Json → Except Complaint Bool
  | .bool b => .ok b
  | .int 0 => .ok false
  | .int 1 => .ok true
  | .int _ => .error .unreadableBoolean
  | .real x =>
    if x.equalsInt 0 then .ok false
    else if x.equalsInt 1 then .ok true
    else .error .notBoolean
  | .str s =>
    if asciiLower s ∈ trueWords then .ok true
    else if asciiLower s ∈ falseWords then .ok false
    else .error .unreadableBoolean
  | _ => .error .notBoolean

/-- A decimal numeral without sign: digits, a point among or beside them, an exponent. -/
def decimal? (negative : Bool) (s : Text) : Option Binary64 := do
  let (whole, afterWhole) := Json.digits s
  let (places, afterPlaces) : Text × Text := match afterWhole with
    | '.' :: rest => Json.digits rest
    | rest => ([], rest)
  if whole.isEmpty && places.isEmpty then none
  let significand := Json.natOfDigits (whole ++ places)
  match afterPlaces with
  | [] => return .ofDecimal negative significand (-(places.length : Int))
  | rest =>
    match Json.exponent? rest with
    | some (e, []) => return .ofDecimal negative significand (e - places.length)
    | _ => none

/-- A numeral with an optional sign, or a word for a value that has no digits. -/
def numeral? (s : Text) : Option Binary64 :=
  let (negative, body) := match s with
    | '-' :: body => (true, body)
    | '+' :: body => (false, body)
    | body => (false, body)
  if asciiLower body ∈ (["inf", "infinity"] : List Text) then some (.infinite negative)
  else if asciiLower body = "nan".toList then some .nan
  else decimal? negative body

/-- A numeral in which single underscores between other characters may group digits. -/
def groupedNumeral? (s : Text) : Option Binary64 :=
  if '_' ∈ s && !Text.startsWith ['_'] s && !Text.endsWith ['_'] s && !Text.occurs ['_', '_'] s then
    numeral? (s.filter (· != '_'))
  else none

/-- A number, a boolean counted as zero or one, or a numeral with blanks around it. -/
def number : Json → Except Complaint Binary64
  | .real x => .ok x
  | .int n => .ok (.ofInt n)
  | .bool b => .ok (.ofInt (if b then 1 else 0))
  | .str s =>
    match numeral? (Text.trim s) <|> groupedNumeral? s with
    | some x => .ok x
    | none => .error .unreadableNumber
  | _ => .error .notNumber

/-- A number greater than zero. -/
def positiveNumber (v : Json) : Except Complaint Binary64 :=
  match number v with
  | .ok x => if x.isPositive then .ok x else .error .tooSmall
  | .error e => .error e

/-- The issues of a check at a place. -/
def issues {α : Type} (place : List Step) : Except Complaint α → List Issue
  | .ok _ => []
  | .error c => [⟨place, c⟩]

/-- The check of a member that may be absent and then has a default. -/
def orDefault {α : Type} (fallback : α) (check : Json → Except Complaint α) :
    Option Json → Except Complaint α
  | none => .ok fallback
  | some v => check v

/-- The check of a member that has to be present. -/
def required {α : Type} (check : Json → Except Complaint α) : Option Json → Except Complaint α
  | none => .error .missing
  | some v => check v

/-- The issue of every member whose name is not among the known ones. -/
def unknownNames (known : List Text) (members : Json.Members) : List Issue :=
  (members.filter fun m => m.1 ∉ known).map fun m => ⟨[.key m.1], .unknownName⟩

end Check

end Scaffold
