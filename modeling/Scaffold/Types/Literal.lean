import Scaffold.Text.Case

/-!
# Literals of the generated code

String literals in single quotes, and the keys of enumeration members.
-/

namespace Scaffold.Literal

/-- A character of a string literal: the quote and the backslash are escaped. -/
def escapeChar (c : Char) : Text := if c = '\\' || c = '\'' then ['\\', c] else [c]

/-- A string literal. -/
def quote (value : Text) : Text := '\'' :: value.flatMap escapeChar ++ ['\'']

/-- A list of string literals. -/
def list (values : List Text) : Text := '[' :: Text.join ", " (values.map quote) ++ [']']

/-- The key of an enumeration member: upper case, anything but ASCII letters and digits replaced by
an underscore, and an underscore in front of a digit or of nothing. -/
def enumKey (value : Text) : Text :=
  let key := (Text.upper value).map fun c =>
    if Text.isAsciiUpper c || Text.isAsciiDigit c then c else '_'
  match key with
  | [] => ['_']
  | c :: _ => if Text.isAsciiDigit c then '_' :: key else key

end Scaffold.Literal
