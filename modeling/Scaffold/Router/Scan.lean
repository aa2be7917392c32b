import Scaffold.Text.Basic

/-!
# Scanning the router file

The router file is source code that people edit.  Two questions are asked about it: where a list
ends, and where the comment on a line starts.  Both are answered by one pass over the characters
that knows whether it stands in code, in a string literal or in a line comment; brackets and
slashes count in code only.
-/

namespace Scaffold.Router

/-- Where a scan stands. -/
inductive Mode where
  | code
  | string (quote : Char)
  | comment
  deriving DecidableEq, Repr

/-- Whether a character opens a string literal. -/
def isQuote (c : Char) : Bool := c == '\'' || c == '"' || c == '`'

/-- Splits a text before the bracket that closes the list opened in it.  `depth` counts the
brackets that are open; it drops below zero at a closing bracket without a partner. -/
def closing? (depth : Int) : Mode → Text → Option (Text × Text)
  | _, [] => none
  | .string q, '\\' :: d :: rest => (closing? depth (.string q) rest).map fun (b, a) => ('\\' :: d :: b, a)
  | .string q, c :: rest =>
    (closing? depth (if c = q then .code else .string q) rest).map fun (b, a) => (c :: b, a)
  | .comment, c :: rest =>
    (closing? depth (if c = '\n' then .code else .comment) rest).map fun (b, a) => (c :: b, a)
  | .code, '/' :: '/' :: rest => (closing? depth .comment rest).map fun (b, a) => ('/' :: '/' :: b, a)
  | .code, c :: rest =>
    if c = ']' && depth = 1 then some ([], c :: rest)
    else
      let depth := if c = '[' then depth + 1 else if c = ']' then depth - 1 else depth
      (closing? depth (if isQuote c then .string c else .code) rest).map fun (b, a) => (c :: b, a)

/-- Splits a line before its comment. -/
def comment? : Mode → Text → Option (Text × Text)
  | _, [] => none
  | .string q, '\\' :: d :: rest => (comment? (.string q) rest).map fun (b, a) => ('\\' :: d :: b, a)
  | .string q, c :: rest =>
    (comment? (if c = q then .code else .string q) rest).map fun (b, a) => (c :: b, a)
  | _, '/' :: '/' :: rest => some ([], '/' :: '/' :: rest)
  | _, c :: rest =>
    (comment? (if isQuote c then .string c else .code) rest).map fun (b, a) => (c :: b, a)

/-- A scan for the closing bracket loses nothing. -/
theorem append_of_closing? {depth : Int} {mode : Mode} {text before after : Text}
    (h : closing? depth mode text = some (before, after)) : before ++ after = text := by
  fun_induction closing? depth mode text generalizing before
  case case1 => simp at h
  case case6 => simp_all
  all_goals
    obtain ⟨⟨b, a⟩, hb, heq⟩ := Option.map_eq_some_iff.1 h
    grind

end Scaffold.Router
