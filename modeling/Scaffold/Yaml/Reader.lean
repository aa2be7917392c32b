import Scaffold.Json.Access
import Scaffold.Json.Notation
import Scaffold.Settings.Load
import Scaffold.Yaml.Cursor
import Scaffold.Yaml.Scalar
import Scaffold.Yaml.Timestamp

/-!
# Reading settings files

The part of YAML that settings are written in: mappings and lists by indentation or in brackets,
plain and quoted scalars, comments and the mark of a document's start.  Anchors, tags, merged mappings,
explicit keys and block scalars are refused like any other fault, and so is a second document.

The functions call each other on strictly shorter rests, or on the same rest a bounded number of
times; they are indexed by a bound on the number of calls, which `read` takes from the text.
-/

namespace Scaffold.Yaml

/-- A node.  The keys of a mapping are scalars; a date is kept as it is spelled, with the word for its kind. -/
inductive Node where
  | leaf (v : Json)
  | timestamp (spelling kind : Text)
  | list (items : List Node)
  | mapping (entries : List (Json × Node))

namespace Node

mutual

/-- A node as a document, if no date is in it; a repeated key keeps its first place and its last value. -/
def json? : Node → Option Json
  | leaf v => some v
  | timestamp _ _ => none
  | list items => (jsonItems? items).map .arr
  | mapping entries =>
    (jsonEntries? entries).map fun es =>
      .obj ((es.foldl (fun t (k, v) => Json.putKey k v t) []).map fun (k, v) => (k.keyText, v))
termination_by structural n => n

/-- The items of a list. -/
def jsonItems? : List Node → Option (List Json)
  | [] => some []
  | n :: ns => do return (← n.json?) :: (← jsonItems? ns)
termination_by structural ns => ns

/-- The entries of a mapping, as they were read. -/
def jsonEntries? : List (Json × Node) → Option (List (Json × Json))
  | [] => some []
  | (k, n) :: es => do return (k, ← n.json?) :: (← jsonEntries? es)
termination_by structural es => es

end

/-- A node as a raw value. -/
def raw (n : Node) : Raw :=
  match n.json? with
  | some v => .plain v
  | none => .foreign .other

/-- A node as what a settings file stands for. -/
def loaded : Node → Loaded
  | leaf v => .ofDocument v
  | timestamp _ kind => .other kind
  | list _ => .other (Json.arr []).kindName
  | mapping entries =>
    .mapping ((entries.foldl (fun t (k, n) => Json.putKey k n.raw t) []).map
      fun (k, v) => (k.messageText, v))

/-- The key that a node is, if it is a scalar. -/
def key? : Node → Option Json
  | leaf v => some v
  | timestamp spelling _ => some (.str spelling)
  | list _ | mapping _ => none

end Node

/-- The node of a plain scalar.  A date that is not in the calendar is refused. -/
def Node.ofPlain (t : Text) : Option Node :=
  match Timestamp.ofText? t with
  | some s => if s.isValid then some (.timestamp t s.kindName) else none
  | none => (plainValue t).map .leaf

/-- The empty node. -/
def Node.empty : Node := .leaf .null

/-- The next token inside brackets. -/
def flowNext (rest : Text) : Cursor := Cursor.after 0 rest

mutual

/-- A scalar or a node in brackets, and the place of the next token. -/
def item (bound : Nat) (flow : Bool) (least : Nat) (c : Cursor) : Option (Node × Cursor) :=
  match bound with
  | 0 => none
  | bound + 1 =>
    match c.rest with
    | '[' :: rest => do
      let (items, rest) ← flowItems bound (flowNext rest)
      return (.list items, Cursor.after c.column rest)
    | '{' :: rest => do
      let (entries, rest) ← flowEntries bound (flowNext rest)
      return (.mapping entries, Cursor.after c.column rest)
    | quote :: rest =>
      if quote = '\'' || quote = '"' then do
        let (t, rest) ← quoted? quote rest
        return (.leaf (.str t), Cursor.after c.column rest)
      else if startsPlain flow (quote :: rest) then do
        let (t, next) := plain flow least c
        return (← Node.ofPlain t, next.skip)
      else none
    | [] => none
termination_by structural bound

/-- The value after a key inside brackets, which may be missing, and the next token. -/
def flowValue (bound : Nat) (c : Cursor) : Option (Node × Cursor) :=
  match bound with
  | 0 => none
  | bound + 1 =>
    match c.rest with
    | ':' :: rest =>
      let next := flowNext rest
      match next.rest with
      | ',' :: _ | ']' :: _ | '}' :: _ => some (.empty, next)
      | _ => item bound true 0 next
    | _ => some (.empty, c)
termination_by structural bound

/-- The items of a list in brackets, and the text after it. -/
def flowItems (bound : Nat) (c : Cursor) : Option (List Node × Text) :=
  match bound with
  | 0 => none
  | bound + 1 =>
    match c.rest with
    | ']' :: rest => some ([], rest)
    | _ => do
      let (n, next) ← item bound true 0 c
      let (n, next) ← match next.rest with
        | ':' :: _ => do
          let key ← n.key?
          let (v, next) ← flowValue bound next
          some (.mapping [(key, v)], next)
        | _ => some (n, next)
      match next.rest with
      | ',' :: rest => do
        let (ns, rest) ← flowItems bound (flowNext rest)
        return (n :: ns, rest)
      | ']' :: rest => return ([n], rest)
      | _ => none
termination_by structural bound

/-- The entries of a mapping in brackets, and the text after it. -/
def flowEntries (bound : Nat) (c : Cursor) : Option (List (Json × Node) × Text) :=
  match bound with
  | 0 => none
  | bound + 1 =>
    match c.rest with
    | '}' :: rest => some ([], rest)
    | _ => do
      let (n, next) ← item bound true 0 c
      let key ← n.key?
      let (v, next) ← flowValue bound next
      match next.rest with
      | ',' :: rest => do
        let (es, rest) ← flowEntries bound (flowNext rest)
        return ((key, v) :: es, rest)
      | '}' :: rest => return ([(key, v)], rest)
      | _ => none
termination_by structural bound

end

mutual

/-- A node by indentation, at least at column `least`, and the place of the next token.  A key may
stand here if `keys` says so or a line has ended before it; `items` allows a list one column further
left. -/
def block (bound : Nat) (least : Nat) (keys items : Bool) (c : Cursor) : Option (Node × Cursor) :=
  match bound with
  | 0 => none
  | bound + 1 =>
    let keys := keys || c.broke
    if c.atEnd || (c.broke && c.column < least &&
        !(items && c.column + 1 == least && c.atDash)) then some (.empty, c)
    else if c.atDash then
      if keys then do
        let (ns, next) ← blockItems bound (c.column + 1 == least) c
        return (.list ns, next)
      else none
    else do
      let (n, next) ← item bound false least c
      match next.afterColon? with
      | none => return (n, next)
      | some _ =>
        if keys then do
          let (es, next) ← blockEntries bound c
          return (.mapping es, next)
        else none
termination_by structural bound

/-- The entries of a mapping whose keys stand at the column of the place, and the next token. -/
def blockEntries (bound : Nat) (c : Cursor) : Option (List (Json × Node) × Cursor) :=
  match bound with
  | 0 => none
  | bound + 1 => do
    let (n, colon) ← item bound false (c.column + 1) c
    let key ← n.key?
    let rest ← colon.afterColon?
    if !c.mayBeKey colon then none
    let (v, next) ← block bound (c.column + 1) false true (Cursor.after c.column rest)
    if next.atEnd then return ([(key, v)], next)
    if !next.broke then none
    if next.column < c.column then return ([(key, v)], next)
    if next.column = c.column && !next.atDash then
      let (es, next) ← blockEntries bound next
      return ((key, v) :: es, next)
    none
termination_by structural bound

/-- The items of a list whose dashes stand at the column of the place, and the next token.  A list
that is `shallow` stands at the column of the keys around it and ends at the next key. -/
def blockItems (bound : Nat) (shallow : Bool) (c : Cursor) : Option (List Node × Cursor) :=
  match bound with
  | 0 => none
  | bound + 1 => do
    let (n, next) ← block bound (c.column + 1) true false
      (Cursor.after (c.column + 1) (c.rest.drop 1))
    if next.atEnd then return ([n], next)
    if !next.broke then none
    if next.column < c.column then return ([n], next)
    if next.column = c.column then
      if next.atDash then
        let (ns, next) ← blockItems bound shallow next
        return (n :: ns, next)
      if shallow then return ([n], next)
    none
termination_by structural bound

end

/-- Whether a character may stand in a file. -/
def isAllowed (c : Char) : Bool :=
  let n := c.toNat
  n == 0x9 || n == 0xA || n == 0xD || (0x20 ≤ n && n ≤ 0x7E) || n == 0x85 ||
    (0xA0 ≤ n && n ≤ 0xFFFD) || 0x10000 ≤ n

/-- Whether nothing but a mark of the end follows a document. -/
def isOver (c : Cursor) : Bool :=
  c.rest.isEmpty ||
    (c.broke && c.column == 0 && Cursor.isMark "..." c.rest &&
      (Cursor.after 3 (c.rest.drop 3)).rest.isEmpty)

/-- The node that a text stands for. -/
def read (t : Text) : Option Node := do
  if !t.all isAllowed then none
  let body := match t with
    | '\uFEFF' :: rest => rest
    | t => t
  let first := Cursor.skipFrom false 0 true body
  let start := if first.column = 0 && Cursor.isMark "---" first.rest then
      Cursor.after 3 (first.rest.drop 3)
    else first
  let (n, next) ← block (4 * body.length + 16) 0 false false start
  if isOver next then return n
  none

end Scaffold.Yaml
