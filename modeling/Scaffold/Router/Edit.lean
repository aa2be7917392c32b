import Scaffold.Names
import Scaffold.Router.Scan
import Scaffold.Text.Blank

/-!
# Registering a module in the router file

A module is registered by two insertions into the text of the router file: an import after the line
of the last import, and an entry at the end of the list `apiRoutes`.  A part that is already in the
text is not inserted again.
-/

namespace Scaffold.Router

/-- The import of a module's router. -/
def importStatement (n : Names) : Text :=
  "import " ++ Text.braced n.routesSymbol ++ " from '../app/modules/" ++ n.folder ++ "/" ++
    n.folder ++ ".route'"

/-- The entry of a module in the list of routes. -/
def registration (n : Names) : Text :=
  Text.braced ("path: '/" ++ n.folder ++ "', route: " ++ n.routesSymbol)

/-- Inserts a statement on the line after the last import, or in front of a text without one. -/
def insertImport (content statement : Text) : Text :=
  match Text.cutLast? "import " content with
  | none => statement ++ '\n' :: content
  | some (before, last) =>
    match last.dropWhile (· != '\n') with
    -- the file ends with its last import
    | [] => content ++ '\n' :: statement ++ ['\n']
    | newline :: rest =>
      before ++ last.takeWhile (· != '\n') ++ newline :: statement ++ '\n' :: rest

/-- A text that holds the list of routes: what stands before the opening bracket, the list up to
its closing bracket, and the rest. -/
structure Located where
  before : Text
  list : Text
  after : Text
  deriving DecidableEq, Repr

/-- The words that declare the list of routes. -/
def declaration : Text := "const apiRoutes"

/-- Finds the list of routes: the first bracket after the first equals sign of the declaration. -/
def locate? (content : Text) : Option Located := do
  let (before, declared) ← Text.cut? declaration content
  let (symbol, assigned) ← Text.cut? ['='] declared
  let (between, opened) ← Text.cut? ['['] assigned
  let (list, after) ← closing? 0 .code opened
  return ⟨before ++ symbol ++ between, list, after⟩

/-- Cuts a text before the comment on its last line; blanks before the comment go with it. -/
def splitComment (head : Text) : Text × Text :=
  let line := (head.reverse.takeWhile (· != '\n')).reverse
  match comment? .code line with
  | none => (head, [])
  | some (_, comment) =>
    let code := Text.trimRight (head.take (head.length - comment.length))
    (code, head.drop code.length)

/-- Whether an entry after the given code needs a comma: the list has one and the code ends neither
with a comma nor with the opening bracket. -/
def needsComma (list code : Text) : Bool :=
  list.contains '{' && !Text.endsWith [','] code && !Text.endsWith ['['] code

/-- Appends an entry to the list of routes, if there is one. -/
def insertRoute (content entry : Text) : Option Text :=
  (locate? content).map fun l =>
    let (code, comment) := splitComment (Text.trimRight (l.before ++ l.list))
    code ++ (if needsComma l.list code then [','] else []) ++ comment ++ '\n' :: ' ' :: ' ' :: entry ++
      '\n' :: l.after

/-- What registering a module does to a text. -/
structure Patch where
  content : Text
  importAdded : Bool
  routeAdded : Bool
  listFound : Bool
  deriving DecidableEq, Repr

/-- Registers a module in a text. -/
def patch (n : Names) (content : Text) : Patch :=
  let statement := importStatement n
  let importAdded := !Text.occurs statement content
  let imported := if importAdded then insertImport content statement else content
  let entry := registration n
  if Text.occurs entry imported then ⟨imported, importAdded, false, true⟩
  else match insertRoute imported entry with
    | none => ⟨imported, importAdded, false, false⟩
    | some routed => ⟨routed, importAdded, true, true⟩

end Scaffold.Router
