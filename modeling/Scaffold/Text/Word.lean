import Scaffold.Text.WordTable

/-!
# Word characters and identifiers

A word character is a letter, a digit or the underscore, in any script.  Field names of the token
grammar and identifiers of the generated code use the ASCII classes, which are given by rule.
-/

namespace Scaffold.Text

/-- Whether a code point lies in one of the inclusive ranges. -/
def inRanges (ranges : List (Nat × Nat)) (n : Nat) : Bool :=
  ranges.any fun r => r.1 ≤ n && n ≤ r.2

/-- Upper-case ASCII letter. -/
def isAsciiUpper (c : Char) : Bool := 'A'.toNat ≤ c.toNat && c.toNat ≤ 'Z'.toNat

/-- Lower-case ASCII letter. -/
def isAsciiLower (c : Char) : Bool := 'a'.toNat ≤ c.toNat && c.toNat ≤ 'z'.toNat

/-- Decimal ASCII digit. -/
def isAsciiDigit (c : Char) : Bool := '0'.toNat ≤ c.toNat && c.toNat ≤ '9'.toNat

/-- ASCII letter or digit. -/
def isAsciiAlnum (c : Char) : Bool := isAsciiUpper c || isAsciiLower c || isAsciiDigit c

/-- ASCII letter, digit or underscore. -/
def isAsciiWord (c : Char) : Bool := isAsciiAlnum c || c == '_'

/-- Letter, digit or underscore of any script. -/
def isWord (c : Char) : Bool :=
  if c.toNat < 128 then isAsciiWord c else inRanges wordRanges c.toNat

/-- A first character of an identifier of the generated code. -/
def isIdentifierStart (c : Char) : Bool :=
  isAsciiUpper c || isAsciiLower c || c == '_' || c == '$'

/-- A later character of an identifier of the generated code. -/
def isIdentifierRest (c : Char) : Bool := isIdentifierStart c || isAsciiDigit c

/-- Whether a text is an identifier of the generated code.  One newline at the end is overlooked. -/
def isIdentifier : List Char → Bool
  | [] => false
  | c :: rest =>
    isIdentifierStart c &&
      (let after := rest.dropWhile isIdentifierRest
       after.isEmpty || after == ['\n'])

theorem isWord_of_isAsciiWord {c : Char} (h : isAsciiWord c = true) : isWord c = true := by
  have : c.toNat < 128 := by
    simp only [isAsciiWord, isAsciiAlnum, isAsciiUpper, isAsciiLower, isAsciiDigit,
      Bool.or_eq_true, Bool.and_eq_true, decide_eq_true_eq, beq_iff_eq] at h
    have h1 : 'Z'.toNat = 90 := rfl
    have h2 : 'z'.toNat = 122 := rfl
    have h3 : '9'.toNat = 57 := rfl
    rcases h with ((h | h) | h) | h
    · omega
    · omega
    · omega
    · subst h; decide
  simp [isWord, this, h]

end Scaffold.Text
