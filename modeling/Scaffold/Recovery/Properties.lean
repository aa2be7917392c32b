import Scaffold.Recovery.Search

/-!
# Properties of an interface

The body of an interface is cut at semicolons and line ends that stand outside of brackets.  A piece
is a property if it consists of a name, an optional marker, a colon and a type on one line.
-/

namespace Scaffold.Recovery

/-- How a character changes the depth of brackets. -/
def bracketStep (c : Char) : Int :=
  if c = '{' || c = '<' || c = '(' then 1
  else if c = '}' || c = '>' || c = ')' then -1
  else 0

/-- Cuts a text at semicolons and line ends outside of brackets. -/
def pieces (depth : Int) : Text → List Text
  | [] => [[]]
  | c :: rest =>
    let depth := depth + bracketStep c
    if depth = 0 && (c = ';' || c = '\n') then [] :: pieces 0 rest
    else match pieces depth rest with
      | [] => [[c]]
      | p :: ps => (c :: p) :: ps

/-- The members of a body: its pieces, trimmed, without empty ones and comments. -/
def members (body : Text) : List Text :=
  ((pieces 0 body).map Text.trim).filter fun m => !m.isEmpty && !Text.startsWith "//" m

/-- A property as it is written. -/
structure Property where
  name : Text
  isOptional : Bool
  type : Text
  deriving DecidableEq, Repr

/-- A type without the semicolon that may end it; a semicolon alone is kept. -/
def withoutSemicolon (type : Text) : Text :=
  match type with
  | [] => []
  | c :: rest => c :: (if Text.endsWith [';'] rest then rest.dropLast else rest)

/-- The property that a member is. -/
def property? (m : Text) : Option Property := do
  let (name, afterName) ← word? m
  let (isOptional, afterMarker) := match afterName with
    | '?' :: rest => (true, rest)
    | rest => (false, rest)
  let type := skipBlanks (← after? [':'] (skipBlanks afterMarker))
  if type.isEmpty || '\n' ∈ type then none
  else return ⟨name, isOptional, Text.trim (withoutSemicolon type)⟩

/-- The properties of a body. -/
def properties (body : Text) : List Property := (members body).filterMap property?

end Scaffold.Recovery
