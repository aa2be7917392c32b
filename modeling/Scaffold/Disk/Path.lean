import Scaffold.Text.Basic

/-!
# Paths

A path is a place to start from and the names to follow.  Repeated slashes, a slash at the end and
names that are a single dot say nothing and are left out when a text is read; two dots stay, because
only a disk knows where they lead.  Exactly two slashes at the start are kept apart from one.
-/

namespace Scaffold

/-- Where a path starts: in the working folder, at the root, or at the root spelled with two
slashes. -/
inductive Anchor where
  | here
  | root
  | doubleRoot
  deriving DecidableEq, Repr

/-- A path. -/
structure Path where
  anchor : Anchor
  parts : List Text
  deriving DecidableEq, Repr

namespace Path

/-- The start that the slashes in front of a text stand for. -/
def anchorOf : Text → Anchor
  | '/' :: '/' :: '/' :: _ => .root
  | '/' :: '/' :: _ => .doubleRoot
  | '/' :: _ => .root
  | _ => .here

/-- Whether a piece between slashes says something. -/
def isPart (piece : Text) : Bool := !piece.isEmpty && piece != ['.']

/-- The path that a text stands for. -/
def ofText (t : Text) : Path := ⟨anchorOf t, (Text.splitOn '/' t).filter isPart⟩

/-- The slashes in front of a path. -/
def slashes : Anchor → Text
  | .here => []
  | .root => ['/']
  | .doubleRoot => ['/', '/']

/-- A path as a text; the working folder is a single dot. -/
def text (p : Path) : Text :=
  match p.anchor, p.parts with
  | .here, [] => ['.']
  | anchor, parts => slashes anchor ++ Text.join ['/'] parts

/-- A path seen from another one; one that starts at the root does not depend on it. -/
def join (p q : Path) : Path :=
  match q.anchor with
  | .here => ⟨p.anchor, p.parts ++ q.parts⟩
  | _ => q

/-- A path extended by a text. -/
def child (p : Path) (t : Text) : Path := p.join (ofText t)

/-- The path without its last part. -/
def parent (p : Path) : Path := { p with parts := p.parts.dropLast }

/-- The last part. -/
def name (p : Path) : Text := p.parts.getLast?.getD []

/-- The last dot of a name with the text after it, if there is text on both sides of the dot. -/
def suffix (p : Path) : Text :=
  match Text.cutLast? ['.'] p.name with
  | some (_ :: _, dot :: c :: rest) => dot :: c :: rest
  | _ => []

/-- The character that ends paths for the system. -/
def terminator : Char := Char.ofNat 0

/-- Whether a part holds the character that ends paths. -/
def hasTerminator (p : Path) : Bool := p.parts.any fun part => part.contains terminator

/-- One name followed without looking at a disk: two dots drop the name before them. -/
def followLexically (location : List Text) (part : Text) : List Text :=
  if part = ['.', '.'] then location.dropLast else location ++ [part]

/-- A path from the root, without two dots, as seen from a working folder. -/
def absolute (home : List Text) (p : Path) : Path :=
  match p.anchor with
  | .here => ⟨.root, (home ++ p.parts).foldl followLexically []⟩
  | anchor => ⟨anchor, p.parts.foldl followLexically []⟩

end Path

end Scaffold
