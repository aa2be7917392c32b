import Scaffold.Json.Basic
import Scaffold.Text.Utf8

/-!
# Writing documents

Two layouts of a document: indented by two blanks, as files are written, and compact, as request
bodies are sent.  A third one writes a list of strings on one line.  Strings either keep their
characters beyond ASCII or spell them as UTF-16 escapes.
-/

namespace Scaffold.Json

/-- Four hexadecimal digits after `\u`. -/
def unicodeEscape (n : Nat) : Text :=
  ['\\', 'u', Utf8.hexDigit (n / 4096 % 16), Utf8.hexDigit (n / 256 % 16),
    Utf8.hexDigit (n / 16 % 16), Utf8.hexDigit (n % 16)]

/-- The UTF-16 escapes of a character: one unit, or a surrogate pair. -/
def utf16Escape (c : Char) : Text :=
  let n := c.toNat
  if n < 0x10000 then unicodeEscape n
  else
    unicodeEscape (0xD800 + (n - 0x10000) / 0x400) ++ unicodeEscape (0xDC00 + (n - 0x10000) % 0x400)

/-- A character inside a string. -/
def escapeChar (ascii : Bool) (c : Char) : Text :=
  if c = '"' then ['\\', '"']
  else if c = '\\' then ['\\', '\\']
  else if c = '\n' then ['\\', 'n']
  else if c = '\r' then ['\\', 'r']
  else if c = '\t' then ['\\', 't']
  else if c = '\x08' then ['\\', 'b']
  else if c = '\x0c' then ['\\', 'f']
  else if c.toNat < 0x20 || (ascii && 0x7F ≤ c.toNat) then utf16Escape c
  else [c]

/-- A string with its quotes. -/
def quoted (ascii : Bool) (s : Text) : Text := '"' :: s.flatMap (escapeChar ascii) ++ ['"']

/-- A number of double precision, with the names of the values that have no digits. -/
def realText (x : Binary64) : Text := x.text "NaN" "Infinity"

/-- A newline and the indentation of a depth. -/
def newlineAt (depth : Nat) : Text := '\n' :: List.replicate (2 * depth) ' '

mutual

/-- The indented text of a value whose line stands at a depth. -/
def pretty (ascii : Bool) (depth : Nat) : Json → Text
  | null => "null"
  | bool b => if b then "true" else "false"
  | int n => Text.ofInt n
  | real x => realText x
  | str s => quoted ascii s
  | arr [] => "[]"
  | arr (x :: xs) => '[' :: prettyItems ascii (depth + 1) (x :: xs) ++ newlineAt depth ++ [']']
  | obj [] => ['{', '}']
  | obj (m :: ms) => '{' :: prettyMembers ascii (depth + 1) (m :: ms) ++ newlineAt depth ++ ['}']
termination_by structural v => v

/-- The items of a list, each on a line of its own. -/
def prettyItems (ascii : Bool) (depth : Nat) : List Json → Text
  | [] => []
  | x :: xs =>
    newlineAt depth ++ pretty ascii depth x ++
      (if xs.isEmpty then [] else [',']) ++ prettyItems ascii depth xs
termination_by structural xs => xs

/-- The members of an object, each on a line of its own. -/
def prettyMembers (ascii : Bool) (depth : Nat) : List (Text × Json) → Text
  | [] => []
  | (k, v) :: ms =>
    newlineAt depth ++ quoted ascii k ++ ": " ++ pretty ascii depth v ++
      (if ms.isEmpty then [] else [',']) ++ prettyMembers ascii depth ms
termination_by structural ms => ms

end

/-- The text of a document file. -/
def fileText (v : Json) : Text := pretty false 0 v

mutual

/-- The text without blanks. -/
def compact : Json → Text
  | null => "null"
  | bool b => if b then "true" else "false"
  | int n => Text.ofInt n
  | real x => realText x
  | str s => quoted false s
  | arr xs => '[' :: compactItems xs ++ [']']
  | obj ms => '{' :: compactMembers ms ++ ['}']
termination_by structural v => v

/-- The items of a list without blanks. -/
def compactItems : List Json → Text
  | [] => []
  | x :: xs => compact x ++ (if xs.isEmpty then [] else [',']) ++ compactItems xs
termination_by structural xs => xs

/-- The members of an object without blanks. -/
def compactMembers : List (Text × Json) → Text
  | [] => []
  | (k, v) :: ms =>
    quoted false k ++ ':' :: compact v ++ (if ms.isEmpty then [] else [',']) ++ compactMembers ms
termination_by structural ms => ms

end

mutual

/-- Whether every number of a value is finite, so that it can be sent. -/
def isFinite : Json → Bool
  | real (.finite _ _) => true
  | real _ => false
  | arr xs => areFinite xs
  | obj ms => membersAreFinite ms
  | _ => true
termination_by structural v => v

/-- Whether every number of the items is finite. -/
def areFinite : List Json → Bool
  | [] => true
  | x :: xs => isFinite x && areFinite xs
termination_by structural xs => xs

/-- Whether every number of the members is finite. -/
def membersAreFinite : List (Text × Json) → Bool
  | [] => true
  | (_, v) :: ms => isFinite v && membersAreFinite ms
termination_by structural ms => ms

end

/-- A list of strings on one line, in ASCII. -/
def stringListText (items : List Text) : Text :=
  '[' :: Text.join ", " (items.map (quoted true)) ++ [']']

end Scaffold.Json
