import Scaffold.Text.Basic
import Scaffold.Text.CaseTable
import Scaffold.Text.Word

/-!
# Upper and lower case

Full case mapping of texts: a character may become several, and a capital sigma takes its final
form at the end of a word.  ASCII letters are mapped by rule; everything else by the tables.
-/

namespace Scaffold.Text

/-- The image of a code point under a list of runs. -/
def CaseRun.image? (runs : List CaseRun) (n : Nat) : Option Nat :=
  (runs.find? fun r => r.first ≤ n && n ≤ r.last && (n - r.first) % r.step == 0).map
    fun r => r.image + (n - r.first)

/-- The mapping of one character given by expansions and runs; unlisted characters stay. -/
def mapCase (runs : List CaseRun) (expansions : List (Nat × List Nat)) (c : Char) : Text :=
  match expansions.lookup c.toNat with
  | some image => image.map Char.ofNat
  | none =>
    match CaseRun.image? runs c.toNat with
    | some n => [Char.ofNat n]
    | none => [c]

/-- Upper case of one character. -/
def upperChar (c : Char) : Text :=
  if c.toNat < 128 then
    if isAsciiLower c then [Char.ofNat (c.toNat - 32)] else [c]
  else mapCase upperRuns upperExpansions c

/-- Lower case of one character, regardless of its neighbours. -/
def lowerChar (c : Char) : Text :=
  if c.toNat < 128 then
    if isAsciiUpper c then [Char.ofNat (c.toNat + 32)] else [c]
  else mapCase lowerRuns lowerExpansions c

/-- Upper case of a text. -/
def upper (text : Text) : Text := text.flatMap upperChar

/-- Whether the nearest character that a case context does not look through is cased. -/
def casedAhead (text : Text) : Bool :=
  match text.dropWhile fun c => inRanges caseIgnorableRanges c.toNat with
  | [] => false
  | c :: _ => inRanges casedRanges c.toNat

/-- Lower case of the rest of a text, given the characters before it from right to left. -/
def lowerAfter (before : Text) : Text → Text
  | [] => []
  | c :: rest =>
    (if c.toNat = 0x3A3 then
      [if casedAhead before && !casedAhead rest then Char.ofNat 0x3C2 else Char.ofNat 0x3C3]
    else lowerChar c) ++ lowerAfter (c :: before) rest

/-- Lower case of a text: a capital sigma becomes final where a word ends with it. -/
def lower (text : Text) : Text := lowerAfter [] text

/-- Upper case of the first character, the rest unchanged. -/
def capitalizeFirst : Text → Text
  | [] => []
  | c :: rest => upperChar c ++ rest

end Scaffold.Text
