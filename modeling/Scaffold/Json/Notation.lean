import Scaffold.Json.Basic
import Scaffold.Text.Quoted

/-!
# Documents inside messages

Error messages show a document on one line: strings as quoted text, the constants capitalised, and
blanks after commas and colons.  A document that is a string is shown as it is.
-/

namespace Scaffold.Json

mutual

/-- A value as part of a shown document. -/
def shown : Json → Text
  | null => "None"
  | bool b => if b then "True" else "False"
  | int n => Text.ofInt n
  | real x => x.text "nan" "inf"
  | str s => Text.quoted s
  | arr xs => '[' :: shownItems xs ++ [']']
  | obj ms => '{' :: shownMembers ms ++ ['}']
termination_by structural v => v

/-- The items of a shown list. -/
def shownItems : List Json → Text
  | [] => []
  | x :: xs => shown x ++ (if xs.isEmpty then [] else [',', ' ']) ++ shownItems xs
termination_by structural xs => xs

/-- The members of a shown object. -/
def shownMembers : List (Text × Json) → Text
  | [] => []
  | (k, v) :: ms =>
    Text.quoted k ++ ':' :: ' ' :: shown v ++ (if ms.isEmpty then [] else [',', ' ']) ++
      shownMembers ms
termination_by structural ms => ms

end

/-- The text of a document in a message. -/
def messageText : Json → Text
  | str s => s
  | v => shown v

end Scaffold.Json
