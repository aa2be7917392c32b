import Scaffold.Settings.Environment
import Scaffold.Text.Blank

/-!
# Environment files

An environment file assigns texts to variables, one on a line.  A value in quotes may run over
several lines and may hold escapes; a value without quotes ends before a comment.  A variable
without an equals sign has no value.  A line that is none of this is passed over.

Values may refer to variables as `$` and a name in braces, optionally with a default after `:-`.
-/

namespace Scaffold.EnvironmentFile

/-- Whether a character is a blank inside a line. -/
def isSpace (c : Char) : Bool := Text.isBlank c && c != '\n' && c != '\r'

/-- Drops the blanks of a line. -/
def skipSpace (s : Text) : Text := s.dropWhile isSpace

/-- Whether a character ends a line. -/
def isLineEnd (c : Char) : Bool := c == '\n' || c == '\r'

/-- The text after the word that may stand before a name. -/
def afterExport (s : Text) : Text :=
  match Text.startsWith "export" s, s.drop 6 with
  | true, c :: rest => if isSpace c then skipSpace (c :: rest) else s
  | _, _ => s

/-- Whether a character may be part of a name without quotes. -/
def isNameChar (c : Char) : Bool := c != '=' && c != '#' && !Text.isBlank c

/-- A name and the rest; a comment has none.  Without a result there is no name. -/
def name? (s : Text) : Option (Option Text × Text) :=
  match s with
  | '#' :: _ => some (none, s)
  | '\'' :: rest =>
    match rest.takeWhile (· != '\''), rest.dropWhile (· != '\'') with
    | c :: name, _ :: after => some (some (c :: name), after)
    | _, _ => none
  | s =>
    match s.takeWhile isNameChar with
    | [] => none
    | name => some (some name, s.dropWhile isNameChar)

/-- A value up to its closing quote, which a backslash in front of it makes part of the value, and
the rest. -/
def quotedValue? (quote : Char) : Text → Option (Text × Text)
  | [] => none
  | '\\' :: c :: rest =>
    if c = quote then
      match quotedValue? quote rest with
      | some (t, after) => some ('\\' :: c :: t, after)
      | none => some (['\\'], rest)
    else (quotedValue? quote (c :: rest)).map fun (t, after) => ('\\' :: t, after)
  | c :: rest =>
    if c = quote then some ([], rest)
    else (quotedValue? quote rest).map fun (t, after) => (c :: t, after)

/-- The character of an escape between double quotes. -/
def escape? : Char → Option Char
  | '\\' => some '\\'
  | '\'' => some '\''
  | '"' => some '"'
  | 'a' => some '\x07'
  | 'b' => some '\x08'
  | 'f' => some '\x0c'
  | 'n' => some '\n'
  | 'r' => some '\r'
  | 't' => some '\t'
  | 'v' => some '\x0b'
  | _ => none

/-- The character of an escape between single quotes. -/
def plainEscape? (c : Char) : Option Char := if c = '\\' || c = '\'' then some c else none

/-- Resolves escapes. -/
def unescape (escape? : Char → Option Char) : Text → Text
  | '\\' :: c :: rest =>
    match escape? c with
    | some d => d :: unescape escape? rest
    | none => '\\' :: unescape escape? (c :: rest)
  | c :: rest => c :: unescape escape? rest
  | [] => []

/-- The text before a comment, which follows a blank; the blanks before it go too. -/
def beforeComment (held : Text) : Text → Text
  | [] => held
  | c :: rest =>
    if Text.isBlank c then beforeComment (held ++ [c]) rest
    else if c = '#' && !held.isEmpty then []
    else held ++ c :: beforeComment [] rest

/-- A value and the rest. -/
def value? (s : Text) : Option (Text × Text) :=
  match s with
  | '\'' :: rest => (quotedValue? '\'' rest).map fun (t, after) => (unescape plainEscape? t, after)
  | '"' :: rest => (quotedValue? '"' rest).map fun (t, after) => (unescape escape? t, after)
  | s =>
    some (Text.trimRight (beforeComment [] (s.takeWhile fun c => !isLineEnd c)),
      s.dropWhile fun c => !isLineEnd c)

/-- The text after a comment and the end of a line. -/
def afterLine? (s : Text) : Option Text :=
  let rest := match skipSpace s with
    | '#' :: rest => rest.dropWhile fun c => !isLineEnd c
    | rest => rest
  match rest with
  | [] => some []
  | c :: rest => if isLineEnd c then some rest else none

/-- One line, the first one with something on it: the variable, if there is one, and the rest. -/
def line (s : Text) : Option (Text × Option Text) × Text :=
  let failed (rest : Text) := (none, (rest.dropWhile fun c => !isLineEnd c).drop 1)
  let start := afterExport s
  match name? start with
  | none => failed start
  | some (name, rest) =>
    let rest := skipSpace rest
    let (value, rest, ok) : Option Text × Text × Bool := match rest with
      | '=' :: after =>
        match value? (skipSpace after) with
        | some (t, rest) => (some t, rest, true)
        | none => (none, skipSpace after, false)
      | rest => (none, rest, true)
    match ok, afterLine? rest with
    | true, some rest => (name.map fun n => (n, value), rest)
    | _, _ => failed rest

/-- The lines of a file, of which there are at most `bound`. -/
def linesWithin (bound : Nat) (s : Text) : Environment :=
  match bound, Text.trimLeft s with
  | 0, _ | _, [] => []
  | bound + 1, c :: rest =>
    let (assignment, rest) := line (c :: rest)
    assignment.toList ++ linesWithin bound rest

/-! ## References -/

/-- A reference after the dollar sign: the name, the default if there is one, and the rest. -/
def reference? (s : Text) : Option (Text × Option Text × Text) :=
  match s with
  | '{' :: rest =>
    let isName (c : Char) : Bool := c != '}' && c != ':'
    match rest.takeWhile isName, rest.dropWhile isName with
    | name, '}' :: after => some (name, none, after)
    | name, ':' :: '-' :: rest =>
      match rest.dropWhile (· != '}') with
      | _ :: after => some (name, some (rest.takeWhile (· != '}')), after)
      | [] => none
    | _, _ => none
  | _ => none

/-- Replaces references; the values of variables that are known by then are used, and `skip`
characters belong to a reference that was replaced. -/
def resolveFrom (known : Environment) (skip : Nat) : Text → Text
  | [] => []
  | c :: rest =>
    match skip with
    | skip + 1 => resolveFrom known skip rest
    | 0 =>
      match c, reference? rest with
      | '$', some (name, fallback, after) =>
        let value := match Table.find? name known with
          | some v => v.getD []
          | none => fallback.getD []
        value ++ resolveFrom known (rest.length - after.length) rest
      | _, _ => c :: resolveFrom known 0 rest

/-- Resolves the lines of a file one after another. -/
def resolve (process : Environment) (done : Environment) : Environment → Environment
  | [] => done
  | (name, value) :: rest =>
    let value := value.map (resolveFrom (Table.overlay process done) 0)
    resolve process (Table.put name value done) rest

/-- The variables of a file, given those of the process. -/
def read (process : Environment) (t : Text) : Environment :=
  resolve process [] (linesWithin (t.length + 1) t)

end Scaffold.EnvironmentFile
