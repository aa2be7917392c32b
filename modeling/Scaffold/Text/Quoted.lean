import Scaffold.Text.PrintableTable
import Scaffold.Text.Utf8
import Scaffold.Text.Word

/-!
# Quoted text

How a text is shown inside a message: in single quotes, or in double quotes when it holds a single
quote and no double one.  The quote in use, the backslash and the usual controls are escaped, and
every character that is not printable is spelled by its code point.
-/

namespace Scaffold.Text

/-- Whether a character is shown as itself. -/
def isPrintable (c : Char) : Bool :=
  if c.toNat < 128 then 32 ≤ c.toNat && c.toNat < 127 else inRanges printableRanges c.toNat

/-- A number in hexadecimal with a fixed count of digits. -/
def hexDigits (width n : Nat) : Text :=
  (List.range width).reverse.map fun i => Utf8.hexDigit (n / Nat.pow 16 i % 16)

/-- A character that is not printable, by its code point. -/
def codePointEscape (c : Char) : Text :=
  let n := c.toNat
  if n < 0x100 then "\\x" ++ hexDigits 2 n
  else if n < 0x10000 then "\\u" ++ hexDigits 4 n
  else "\\U" ++ hexDigits 8 n

/-- A character between quotes. -/
def quotedChar (quote c : Char) : Text :=
  if c = quote || c = '\\' then ['\\', c]
  else if c = '\n' then ['\\', 'n']
  else if c = '\r' then ['\\', 'r']
  else if c = '\t' then ['\\', 't']
  else if isPrintable c then [c]
  else codePointEscape c

/-- A text in quotes. -/
def quoted (text : Text) : Text :=
  let quote : Char := if '\'' ∈ text && '"' ∉ text then '"' else '\''
  quote :: text.flatMap (quotedChar quote) ++ [quote]

/-- A list of texts in brackets. -/
def quotedList (items : List Text) : Text := '[' :: join ", " (items.map quoted) ++ [']']

end Scaffold.Text
