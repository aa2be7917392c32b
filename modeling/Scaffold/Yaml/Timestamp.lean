import Scaffold.Json.Reader

/-!
# Dates

A scalar without quotes may be a date, as `2024-01-31`, or a date with a time of day, a blank or the letter T
between them, and perhaps with a distance from universal time.
-/

namespace Scaffold.Yaml

/-- A time of day, with the distance from universal time in minutes. -/
structure Clock where
  hour : Nat
  minute : Nat
  second : Nat
  offset : Nat

/-- A date, perhaps with a time of day. -/
structure Timestamp where
  year : Nat
  month : Nat
  day : Nat
  clock : Option Clock

/-- A number of at least and at most so many digits, and the rest. -/
def figure? (least most : Nat) (t : Text) : Option (Nat × Text) :=
  let (ds, rest) := Json.digits t
  if least ≤ ds.length && ds.length ≤ most then some (Json.natOfDigits ds, rest) else none

/-- Whether a character is a blank between a date and a time. -/
def isGap (c : Char) : Bool := c == ' ' || c == '\t'

/-- The distance from universal time that ends a time of day, in minutes. -/
def offset? (t : Text) : Option Nat :=
  match t, t.dropWhile isGap with
  | [], _ => some 0
  | _, ['Z'] => some 0
  | _, sign :: rest => do
    if sign != '+' && sign != '-' then none
    match ← figure? 1 2 rest with
    | (hours, []) => return 60 * hours
    | (hours, ':' :: rest) =>
      let (minutes, rest) ← figure? 2 2 rest
      if rest.isEmpty then return 60 * hours + minutes else none
    | _ => none
  | _, [] => none

/-- A time of day.  Parts of seconds may follow a point. -/
def clock? (t : Text) : Option Clock := do
  let (hour, ':' :: rest) ← figure? 1 2 t | none
  let (minute, ':' :: rest) ← figure? 2 2 rest | none
  let (second, rest) ← figure? 2 2 rest
  let rest := match rest with
    | '.' :: rest => (Json.digits rest).2
    | rest => rest
  return ⟨hour, minute, second, ← offset? rest⟩

/-- The text after the mark between a date and a time of day. -/
def afterDate? : Text → Option Text
  | [] => none
  | c :: rest =>
    if c == 'T' || c == 't' then some rest
    else if isGap c then some (rest.dropWhile isGap)
    else none

namespace Timestamp

/-- A date, or a date and a time of day, as they are spelled.  A date alone has all its digits. -/
def ofText? (t : Text) : Option Timestamp := do
  let (year, '-' :: rest) ← figure? 4 4 t | none
  let (month, '-' :: rest) ← figure? 1 2 rest | none
  let (day, rest) ← figure? 1 2 rest
  if rest.isEmpty then
    if t.length = 10 then return ⟨year, month, day, none⟩ else none
  else return ⟨year, month, day, some (← clock? (← afterDate? rest))⟩

/-- The number of days of a month. -/
def daysIn (year month : Nat) : Nat :=
  if month = 2 then
    if (year % 4 = 0 ∧ year % 100 ≠ 0) ∨ year % 400 = 0 then 29 else 28
  else if month ∈ [4, 6, 9, 11] then 30
  else 31

/-- Whether there is such a day and such a time. -/
def isValid (t : Timestamp) : Bool :=
  1 ≤ t.year && 1 ≤ t.month && t.month ≤ 12 && 1 ≤ t.day && t.day ≤ daysIn t.year t.month &&
    t.clock.all fun c => c.hour < 24 && c.minute < 60 && c.second < 60 && c.offset < 24 * 60

/-- The word for the kind of a timestamp in messages. -/
def kindName (t : Timestamp) : Text := if t.clock.isSome then "datetime" else "date"

end Timestamp

end Scaffold.Yaml
