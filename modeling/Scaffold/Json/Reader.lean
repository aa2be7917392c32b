import Scaffold.Json.Basic

/-!
# Reading documents

A document is read by one function per kind of value.  Each takes the rest of the text and answers
what is left after the value, or the reason why there is none together with the length of the text
that was left at the fault; `parse` turns that length into an offset, a line and a column.

The functions call each other on strictly shorter rests.  They are indexed by a bound on that
length, which `parse` takes from the text itself.  Documents may be of any depth and integers of any
length.
-/

namespace Scaffold.Json

/-- Why a text is no document. -/
inductive Reason where
  | value
  | propertyName
  | colon
  | comma
  | extra
  | unterminated
  | controlCharacter
  | badEscape
  | badUnicodeEscape
  | byteOrderMark
  deriving DecidableEq, Repr

/-- The reason in words. -/
def Reason.message : Reason → Text
  | value => "Expecting value"
  | propertyName => "Expecting property name enclosed in double quotes"
  | colon => "Expecting ':' delimiter"
  | comma => "Expecting ',' delimiter"
  | extra => "Extra data"
  | unterminated => "Unterminated string starting at"
  | controlCharacter => "Invalid control character at"
  | badEscape => "Invalid \\escape"
  | badUnicodeEscape => "Invalid \\uXXXX escape"
  | byteOrderMark => "Unexpected UTF-8 BOM (decode using utf-8-sig)"

/-- A fault inside a text: the reason, and how many characters were left. -/
structure Fault where
  reason : Reason
  left : Nat
  deriving DecidableEq, Repr

/-- A fault with its place: the offset, and the line and the column counted from one. -/
structure ParseError where
  reason : Reason
  offset : Nat
  line : Nat
  column : Nat
  deriving DecidableEq, Repr

/-- The reason and the place. -/
def ParseError.message (e : ParseError) : Text :=
  e.reason.message ++ ": line " ++ Text.ofNat e.line ++ " column " ++ Text.ofNat e.column ++
    " (char " ++ Text.ofNat e.offset ++ ")"

/-- The place of an offset: newlines before it, and characters since the last one. -/
def ParseError.place (reason : Reason) (text : Text) (offset : Nat) : ParseError :=
  let before := text.take offset
  ⟨reason, offset, before.count '\n' + 1, (before.reverse.takeWhile (· != '\n')).length + 1⟩

/-- Skips the blanks between tokens. -/
def skipBlanks (s : Text) : Text :=
  s.dropWhile fun c => c == ' ' || c == '\t' || c == '\n' || c == '\r'

/-- The value of a hexadecimal digit. -/
def hexValue? (c : Char) : Option Nat :=
  let n := c.toNat
  if 48 ≤ n && n ≤ 57 then some (n - 48)
  else if 97 ≤ n && n ≤ 102 then some (n - 87)
  else if 65 ≤ n && n ≤ 70 then some (n - 55)
  else none

/-- The value of four hexadecimal digits. -/
def hexUnit? (a b c d : Char) : Option Nat := do
  let a ← hexValue? a
  let b ← hexValue? b
  let c ← hexValue? c
  let d ← hexValue? d
  return a * 4096 + b * 256 + c * 16 + d

/-- The character of a one-letter escape. -/
def simpleEscape? : Char → Option Char
  | '"' => some '"'
  | '\\' => some '\\'
  | '/' => some '/'
  | 'b' => some '\x08'
  | 'f' => some '\x0c'
  | 'n' => some '\n'
  | 'r' => some '\r'
  | 't' => some '\t'
  | _ => none

/-- Joins each high surrogate with a low one that follows it. -/
def joinSurrogates : List Nat → Text
  | [] => []
  | [n] => [Char.ofNat n]
  | hi :: lo :: rest =>
    if 0xD800 ≤ hi && hi < 0xDC00 && 0xDC00 ≤ lo && lo < 0xE000 then
      Char.ofNat (0x10000 + (hi - 0xD800) * 0x400 + (lo - 0xDC00)) :: joinSurrogates rest
    else Char.ofNat hi :: joinSurrogates (lo :: rest)

/-- The units of a string up to its closing quote, and the text after it.  `start` is the text after
the opening quote. -/
def stringUnits (start : Text) : Text → Except Fault (List Nat × Text)
  | [] => .error ⟨.unterminated, start.length + 1⟩
  | '"' :: rest => .ok ([], rest)
  | ['\\'] => .error ⟨.unterminated, start.length + 1⟩
  | '\\' :: 'u' :: a :: b :: c :: d :: rest =>
    match hexUnit? a b c d, rest with
    | some n, _ :: _ => (stringUnits start rest).map fun (ns, after) => (n :: ns, after)
    | _, _ => .error ⟨.badUnicodeEscape, rest.length + 5⟩
  | '\\' :: e :: rest =>
    if e = 'u' then .error ⟨.badUnicodeEscape, rest.length + 1⟩
    else match simpleEscape? e with
      | some c => (stringUnits start rest).map fun (ns, after) => (c.toNat :: ns, after)
      | none => .error ⟨.badEscape, rest.length + 2⟩
  | c :: rest =>
    if c.toNat < 0x20 then .error ⟨.controlCharacter, rest.length + 1⟩
    else (stringUnits start rest).map fun (ns, after) => (c.toNat :: ns, after)

/-- A string after its opening quote. -/
def string (rest : Text) : Except Fault (Text × Text) :=
  (stringUnits rest rest).map fun (ns, after) => (joinSurrogates ns, after)

/-- Leading decimal digits and the rest. -/
def digits (s : Text) : Text × Text := (s.takeWhile Char.isDigit, s.dropWhile Char.isDigit)

/-- The number that decimal digits stand for. -/
def natOfDigits (ds : Text) : Nat := ds.foldl (fun n c => 10 * n + (c.toNat - 48)) 0

/-- The digits after a point; there has to be one. -/
def fraction? : Text → Option (Text × Text)
  | '.' :: rest =>
    match digits rest with
    | ([], _) => none
    | (ds, after) => some (ds, after)
  | _ => none

/-- The power of ten after an exponent mark; it has to have a digit. -/
def exponent? : Text → Option (Int × Text)
  | mark :: rest =>
    if mark = 'e' || mark = 'E' then
      let (negative, body) := match rest with
        | '-' :: body => (true, body)
        | '+' :: body => (false, body)
        | body => (false, body)
      match digits body with
      | ([], _) => none
      | (ds, after) =>
        let n : Int := natOfDigits ds
        some (if negative then -n else n, after)
    else none
  | [] => none

/-- The integer part of a number without sign: a zero stands alone. -/
def wholePart? : Text → Option (Text × Text)
  | '0' :: rest => some (['0'], rest)
  | s => match digits s with
    | ([], _) => none
    | (ds, after) => some (ds, after)

/-- A number: an integer unless it has a fraction or an exponent. -/
def number? (s : Text) : Option (Json × Text) := do
  let (negative, body) := match s with
    | '-' :: body => (true, body)
    | body => (false, body)
  let (whole, afterWhole) ← wholePart? body
  let (places, afterPlaces) := (fraction? afterWhole).getD ([], afterWhole)
  match exponent? afterPlaces, places with
  | none, [] =>
    let n : Int := natOfDigits whole
    return (int (if negative then -n else n), afterWhole)
  | none, _ =>
    return (real (.ofDecimal negative (natOfDigits (whole ++ places)) (-(places.length : Int))),
      afterPlaces)
  | some (e, after), _ =>
    return (real (.ofDecimal negative (natOfDigits (whole ++ places)) (e - places.length)), after)

/-- A word at the beginning of a text. -/
def word? (w : Text) (v : Json) (s : Text) : Option (Json × Text) :=
  if w.isPrefixOf s then some (v, s.drop w.length) else none

/-- A value that is neither a string nor a list nor an object. -/
def scalar? (s : Text) : Option (Json × Text) :=
  word? "null" null s <|> word? "true" (bool true) s <|> word? "false" (bool false) s <|>
    word? "NaN" (real .nan) s <|> word? "Infinity" (real (.infinite false)) s <|>
    word? "-Infinity" (real (.infinite true)) s <|> number? s

mutual

/-- A value at the beginning of a text. -/
def value (bound : Nat) (s : Text) : Except Fault (Json × Text) :=
  match bound with
  | 0 => .error ⟨.value, s.length⟩
  | bound + 1 =>
    match s with
    | '"' :: rest => (string rest).map fun (t, after) => (str t, after)
    | '[' :: rest =>
      match skipBlanks rest with
      | ']' :: after => .ok (arr [], after)
      | first => (items bound first).map fun (xs, after) => (arr xs, after)
    | '{' :: rest =>
      match skipBlanks rest with
      | '}' :: after => .ok (obj [], after)
      | first => (members bound first).map fun (ms, after) => (obj (Table.ofEntries ms), after)
    | s =>
      match scalar? s with
      | some found => .ok found
      | none => .error ⟨.value, s.length⟩
termination_by structural bound

/-- The items of a list from the first one up to the closing bracket. -/
def items (bound : Nat) (s : Text) : Except Fault (List Json × Text) :=
  match bound with
  | 0 => .error ⟨.value, s.length⟩
  | bound + 1 =>
    match value bound s with
    | .error e => .error e
    | .ok (x, rest) =>
      match skipBlanks rest with
      | ']' :: after => .ok ([x], after)
      | ',' :: next => (items bound (skipBlanks next)).map fun (xs, after) => (x :: xs, after)
      | other => .error ⟨.comma, other.length⟩
termination_by structural bound

/-- The members of an object from the first one up to the closing brace. -/
def members (bound : Nat) (s : Text) : Except Fault (List (Text × Json) × Text) :=
  match bound with
  | 0 => .error ⟨.propertyName, s.length⟩
  | bound + 1 =>
    match s with
    | '"' :: rest =>
      match string rest with
      | .error e => .error e
      | .ok (key, afterKey) =>
        match skipBlanks afterKey with
        | ':' :: afterColon =>
          match value bound (skipBlanks afterColon) with
          | .error e => .error e
          | .ok (v, rest) =>
            match skipBlanks rest with
            | '}' :: after => .ok ([(key, v)], after)
            | ',' :: next =>
              (members bound (skipBlanks next)).map fun (ms, after) => ((key, v) :: ms, after)
            | other => .error ⟨.comma, other.length⟩
        | other => .error ⟨.colon, other.length⟩
    | s => .error ⟨.propertyName, s.length⟩
termination_by structural bound

end

/-- The document that a whole text stands for. -/
def parse (text : Text) : Except ParseError Json :=
  let fail (f : Fault) : ParseError := .place f.reason text (text.length - f.left)
  match text with
  | '\uFEFF' :: _ => .error (.place .byteOrderMark text 0)
  | _ =>
    match value (2 * text.length + 2) (skipBlanks text) with
    | .error f => .error (fail f)
    | .ok (v, rest) =>
      match skipBlanks rest with
      | [] => .ok v
      | extra => .error (fail ⟨.extra, extra.length⟩)

end Scaffold.Json
