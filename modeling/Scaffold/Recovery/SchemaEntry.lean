import Scaffold.Recovery.Search

/-!
# What the model file says about a field

The entry of a field in a Mongoose schema is found by its name and a colon.  From an entry in braces
come the values of an enumeration, the target of a reference and whether the field is required; an
entry that is a list says nothing of these.
-/

namespace Scaffold.Recovery

/-- What the model file says about a field. -/
structure SchemaEntry where
  values : List Text
  target : Option Text
  isRequired : Bool
  deriving DecidableEq, Repr

/-- The text after the name of a field, a colon and blanks, unless the name is the end of a longer
one. -/
def valueOf? (name : Text) (before : Option Char) (s : Text) : Option Text := do
  if before.any fun c => Text.isWord c || c == '$' then none
  let s ← after? [':'] (← after? name s)
  return skipBlanks s

/-- The text of an entry in braces, up to the first closing brace. -/
def bracedValue? (name : Text) (before : Option Char) (s : Text) : Option Text := do
  let s ← after? ['{'] (← valueOf? name before s)
  match s.takeWhile (· != '}'), s.dropWhile (· != '}') with
  | c :: body, _ :: _ => return c :: body
  | _, _ => none

/-- Whether an entry is a list. -/
def listValue? (name : Text) (before : Option Char) (s : Text) : Option Text := do
  after? ['['] (← valueOf? name before s)

/-- The text of a list of literals up to its closing bracket; a bracket inside a literal does not
count, and neither does anything after a quote that opens none.  `skip` characters belong to the
last literal. -/
def literalListFrom? (skip : Nat) : Text → Option Text
  | [] => none
  | c :: rest =>
    match skip with
    | skip + 1 => (literalListFrom? skip rest).map (c :: ·)
    | 0 =>
      if c = ']' then some []
      else if c = '\'' || c = '"' then
        match literal? (c :: rest) with
        | some (_, left) => (literalListFrom? (rest.length - left.length) rest).map (c :: ·)
        | none => none
      else (literalListFrom? 0 rest).map (c :: ·)

/-- The list of values of an entry. -/
def valueList? (s : Text) : Option Text := do
  let s ← after? ['['] (skipBlanks (← after? "enum:" s))
  literalListFrom? 0 s

/-- Whether a character may quote the target of a reference. -/
def isPlainQuote (c : Char) : Bool := c == '\'' || c == '"'

/-- The target of a reference. -/
def target? (s : Text) : Option Text := do
  match skipBlanks (← after? "ref:" s) with
  | quote :: rest =>
    if isPlainQuote quote then
      match rest.takeWhile fun c => !isPlainQuote c, rest.dropWhile fun c => !isPlainQuote c with
      | c :: target, _ :: _ => return c :: target
      | _, _ => none
    else none
  | [] => none

/-- The mark of a required field. -/
def required? (s : Text) : Option Unit := do
  let _ ← after? "true" (skipBlanks (← after? "required:" s))

/-- What an entry in braces says. -/
def SchemaEntry.ofText (definition : Text) : SchemaEntry :=
  ⟨((first? valueList? definition).map literalValues).getD [], first? target? definition,
    (first? required? definition).isSome⟩

/-- What the model file says about a field with a name. -/
def schemaOf? (name model : Text) : Option SchemaEntry :=
  if model.isEmpty then none
  else match firstAfter? (bracedValue? name) none model with
    | some definition => some (.ofText definition)
    | none => (firstAfter? (listValue? name) none model).map fun _ => ⟨[], none, false⟩

end Scaffold.Recovery
