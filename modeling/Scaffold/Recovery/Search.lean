import Scaffold.Text.Blank
import Scaffold.Text.Word

/-!
# Searching source code

Source files are searched for the first place at which something can be read, or for all such places
that do not overlap.  What can be read at a place is given by a function on the text from there on.
-/

namespace Scaffold.Recovery

/-- Removes leading blanks. -/
def skipBlanks (s : Text) : Text := s.dropWhile Text.isBlank

/-- The text after leading blanks, if there is at least one. -/
def skipSomeBlanks? : Text → Option Text
  | [] => none
  | c :: rest => if Text.isBlank c then some (skipBlanks rest) else none

/-- The text after a phrase. -/
def after? (phrase s : Text) : Option Text :=
  if phrase.isPrefixOf s then some (s.drop phrase.length) else none

/-- Leading word characters and the text after them, if there is one. -/
def word? (s : Text) : Option (Text × Text) :=
  match s.takeWhile Text.isWord with
  | [] => none
  | w => some (w, s.dropWhile Text.isWord)

/-- The first place at which something can be read.  The reading also sees the character before. -/
def firstAfter? {α : Type} (read? : Option Char → Text → Option α) (before : Option Char) :
    Text → Option α
  | [] => read? before []
  | c :: rest =>
    match read? before (c :: rest) with
    | some a => some a
    | none => firstAfter? read? (some c) rest

/-- The first place at which something can be read. -/
def first? {α : Type} (read? : Text → Option α) (s : Text) : Option α :=
  firstAfter? (fun _ t => read? t) none s

/-- All things that can be read at places that do not overlap, from left to right.  A reading also
answers what is left after it; `skip` characters belong to the last one. -/
def allFrom {α : Type} (read? : Text → Option (α × Text)) (skip : Nat) : Text → List α
  | [] => []
  | c :: rest =>
    match skip with
    | skip + 1 => allFrom read? skip rest
    | 0 =>
      match read? (c :: rest) with
      | some (a, left) => a :: allFrom read? (rest.length - left.length) rest
      | none => allFrom read? 0 rest

/-- All things that can be read at places that do not overlap. -/
def all {α : Type} (read? : Text → Option (α × Text)) (s : Text) : List α := allFrom read? 0 s

/-! ## String literals -/

/-- The inside of a literal up to its closing quote, and the text after it.  A backslash takes the
next character with it, but not a line end. -/
def literalBody? (quote : Char) : Text → Option (Text × Text)
  | [] => none
  | ['\\'] => none
  | '\\' :: d :: rest =>
    if d = '\n' then none
    else (literalBody? quote rest).map fun (b, a) => ('\\' :: d :: b, a)
  | c :: rest =>
    if c = quote then some ([], rest)
    else (literalBody? quote rest).map fun (b, a) => (c :: b, a)

/-- The inside of a string literal and the text after it. -/
def literal? : Text → Option (Text × Text)
  | '\'' :: rest => literalBody? '\'' rest
  | '"' :: rest => literalBody? '"' rest
  | _ => none

/-- The value of the inside of a literal: a backslash stands for the character after it, unless
that is a line end. -/
def unescape : Text → Text
  | '\\' :: '\n' :: rest => '\\' :: '\n' :: unescape rest
  | '\\' :: c :: rest => c :: unescape rest
  | c :: rest => c :: unescape rest
  | [] => []

/-- The values of all literals in a text. -/
def literalValues (s : Text) : List Text :=
  all (fun t => (literal? t).map fun (b, a) => (unescape b, a)) s

end Scaffold.Recovery
