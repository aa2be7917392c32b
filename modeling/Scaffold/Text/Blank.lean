import Scaffold.Text.Basic

/-!
# White space

Which characters are blank, and trimming.  Besides the ASCII blanks this covers the four
information separators `U+001C`–`U+001F`, next line, no-break space and the Unicode spaces; the
zero-width space is not blank.
-/

namespace Scaffold.Text

/-- Whether a character is white space. -/
def isBlank (c : Char) : Bool :=
  let n := c.toNat
  (9 ≤ n && n ≤ 13) || (28 ≤ n && n ≤ 32) || n == 0x85 || n == 0xA0 || n == 0x1680 ||
    (0x2000 ≤ n && n ≤ 0x200A) || n == 0x2028 || n == 0x2029 || n == 0x202F || n == 0x205F ||
    n == 0x3000

/-- Removes leading white space. -/
def trimLeft (text : Text) : Text := text.dropWhile isBlank

/-- Removes trailing white space. -/
def trimRight (text : Text) : Text := dropRightWhile isBlank text

/-- Removes white space at both ends. -/
def trim (text : Text) : Text := trimRight (trimLeft text)

/-- Removes white space everywhere. -/
def withoutBlanks (text : Text) : Text := text.filter fun c => !isBlank c

end Scaffold.Text
