import Scaffold.Check

/-!
# Plain scalars

A scalar without quotes stands for a value that depends on how it is spelled: a word for null or a
boolean, an integer in one of several bases, a floating point number with a point, and otherwise
itself.
-/

namespace Scaffold.Yaml

/-- The words for null. -/
def nullWords : List Text := ["", "~", "null", "Null", "NULL"]

/-- The words for true. -/
def trueWords : List Text := ["yes", "Yes", "YES", "true", "True", "TRUE", "on", "On", "ON"]

/-- The words for false. -/
def falseWords : List Text := ["no", "No", "NO", "false", "False", "FALSE", "off", "Off", "OFF"]

/-- Words that stand for no value. -/
def reservedWords : List Text := ["=", "<<"]

/-- Splits off a sign. -/
def signed : Text → Bool × Text
  | '-' :: rest => (true, rest)
  | '+' :: rest => (false, rest)
  | t => (false, t)

/-- The number that digits write in a base, between which underscores may stand. -/
def digitsIn? (base : Nat) (t : Text) : Option Nat :=
  match t.filter (· != '_') with
  | [] => none
  | ds => ds.foldlM (fun n c => do
      let d ← Json.hexValue? c
      if d < base then some (n * base + d) else none) 0

/-- Whether a text is digits and underscores, a digit first. -/
def isDigits (t : Text) : Bool :=
  match t with
  | c :: _ => Text.isAsciiDigit c && t.all fun c => Text.isAsciiDigit c || c == '_'
  | [] => false

/-- Whether a text is a number below sixty. -/
def isSixtieth : Text → Bool
  | [c] => Text.isAsciiDigit c
  | [c, d] => Text.isAsciiDigit c && c.toNat < '6'.toNat && Text.isAsciiDigit d
  | _ => false

/-- A number in places of sixty, of which the first may be any. -/
def sexagesimal? (parts : List Text) : Option Nat :=
  match parts with
  | first :: second :: rest =>
    if isDigits first && (second :: rest).all isSixtieth then
      parts.foldlM (fun n t => (digitsIn? 10 t).map fun d => n * 60 + d) 0
    else none
  | _ => none

/-- A natural number. -/
def natural? (t : Text) : Option Nat :=
  match t with
  | ['0'] => some 0
  | '0' :: 'b' :: digits => digitsIn? 2 digits
  | '0' :: 'x' :: digits => digitsIn? 16 digits
  | '0' :: digits => if isDigits t then digitsIn? 8 ('0' :: digits) else none
  | t =>
    if isDigits t then digitsIn? 10 t
    else sexagesimal? (Text.splitOn ':' t)

/-- An integer. -/
def integer? (t : Text) : Option Int :=
  let (negative, body) := signed t
  (natural? body).map fun n => if negative then -(n : Int) else n

/-- An exponent with its sign, or nothing. -/
def exponent? : Text → Option Int
  | [] => some 0
  | e :: sign :: digits =>
    if (e == 'e' || e == 'E') && (sign == '-' || sign == '+') && digits.all Text.isAsciiDigit then
      (digitsIn? 10 digits).map fun n => if sign = '-' then -(n : Int) else n
    else none
  | _ => none

/-- Whether a character may stand among the places after a point. -/
def isPlace (c : Char) : Bool := Text.isAsciiDigit c || c == '_'

/-- A number with a point: the part before it, the places after it and an exponent. -/
def pointed? (negative : Bool) (whole afterPoint : Text) (whole? : Text → Option Nat) :
    Option Binary64 := do
  let places := (afterPoint.takeWhile isPlace).filter (· != '_')
  let exponent ← exponent? (afterPoint.dropWhile isPlace)
  let before ← whole? whole
  let after ← if places.isEmpty then some 0 else digitsIn? 10 places
  return .ofDecimal negative (before * Nat.pow 10 places.length + after) (exponent - places.length)

/-- A floating point number. -/
def real? (t : Text) : Option Binary64 :=
  let (negative, body) := signed t
  if body ∈ ([".inf", ".Inf", ".INF"] : List Text) then some (.infinite negative)
  else if t ∈ ([".nan", ".NaN", ".NAN"] : List Text) then some .nan
  else match body.takeWhile (· != '.'), body.dropWhile (· != '.') with
    | [], '.' :: c :: rest =>
      if body = t && Text.isAsciiDigit c then pointed? false [] (c :: rest) fun _ => some 0
      else none
    | whole, '.' :: rest =>
      if isDigits whole then pointed? negative whole rest (digitsIn? 10)
      else if rest.all isPlace then
        pointed? negative whole rest fun w => sexagesimal? (Text.splitOn ':' w)
      else none
    | _, _ => none

/-- The value of a plain scalar. -/
def plainValue (t : Text) : Option Json :=
  if t ∈ reservedWords then none
  else if t ∈ nullWords then some .null
  else if t ∈ trueWords then some (.bool true)
  else if t ∈ falseWords then some (.bool false)
  else match integer? t, real? t with
    | some n, _ => some (.int n)
    | none, some x => some (.real x)
    | none, none => some (.str t)

end Scaffold.Yaml
