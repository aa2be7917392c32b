import Scaffold.Recovery.Search
import Scaffold.Table

/-!
# Declarations in an interface file

An interface file is a sequence of exported interfaces and enumerations.  A declaration reaches
from its header to the brace that closes it, found by counting braces; what is left open ends with
the file.
-/

namespace Scaffold.Recovery

/-- What a declaration declares. -/
inductive DeclarationKind where
  | interface
  | enumeration
  deriving DecidableEq, Repr

/-- The keyword of a declaration. -/
def DeclarationKind.keyword : DeclarationKind → Text
  | interface => "interface"
  | enumeration => "enum"

/-- An exported declaration with the text between its braces. -/
structure Block where
  kind : DeclarationKind
  name : Text
  body : Text
  deriving DecidableEq, Repr

/-- The keyword at the beginning of a text, and the text after it. -/
def keyword? (s : Text) : Option (DeclarationKind × Text) :=
  ((after? "interface" s).map fun r => (.interface, r)) <|>
    ((after? "enum" s).map fun r => (.enumeration, r))

/-- The header of a declaration up to its opening brace, and the text after it. -/
def header? (s : Text) : Option (DeclarationKind × Text × Text) := do
  let s ← skipSomeBlanks? (← after? "export" s)
  let (kind, s) ← keyword? s
  let (name, s) ← word? (← skipSomeBlanks? s)
  return (kind, name, ← after? ['{'] (skipBlanks s))

/-- The text up to the brace that closes `depth` open ones, and the text after that brace. -/
def balanced (depth : Nat) : Text → Text × Text
  | [] => ([], [])
  | c :: rest =>
    if c = '}' && depth ≤ 1 then ([], rest)
    else
      let depth := if c = '{' then depth + 1 else if c = '}' then depth - 1 else depth
      let (body, after) := balanced depth rest
      (c :: body, after)

/-- A declaration at the beginning of a text, and the text after it. -/
def block? (s : Text) : Option (Block × Text) :=
  (header? s).map fun (kind, name, rest) =>
    let (body, after) := balanced 1 rest
    (⟨kind, name, body⟩, after)

/-- All declarations of a file, in order. -/
def blocks (content : Text) : List Block := all block? content

/-- A member of an enumeration with a literal, from its key on. -/
def enumMember? (s : Text) : Option (Text × Text) := do
  let (_, s) ← word? s
  let s ← after? ['='] (skipBlanks s)
  let (body, rest) ← literal? (skipBlanks s)
  return (unescape body, rest)

/-- The values of the members of an enumeration, without empty ones. -/
def memberValues (body : Text) : List Text := (all enumMember? body).filter fun v => !v.isEmpty

/-- The enumerations that have values; of two with one name the later one counts. -/
def enumerations (bs : List Block) : List (Text × List Text) :=
  Table.ofEntries (bs.filterMap fun b =>
    if b.kind = .enumeration && !(memberValues b.body).isEmpty then some (b.name, memberValues b.body)
    else none)

/-- The interfaces of a file with their bodies. -/
def interfaces (bs : List Block) : List (Text × Text) :=
  (bs.filter fun b => b.kind = .interface).map fun b => (b.name, b.body)

end Scaffold.Recovery
