import Scaffold.Artifact.Blueprint
import Scaffold.Artifact.Code
import Scaffold.Types.Zod

/-!
# The validation file

Zod validators for the requests of a module: creating, updating, reading one, reading all and
deleting.  The validators of the items of lists of objects are declared first.
-/

namespace Scaffold.Validation

open Code

/-- The validator of the items of a list of objects. -/
def itemLines (f : Field) : List Text :=
  ["const " ++ f.itemSchemaName ++ " = z.object(" ++ lb] ++
    ((Field.visible f.children).map fun p =>
      indent 2 (p.name ++ ": " ++ Zod.expression false p ++ [','])) ++
    [rb ++ ");", []]

/-- The fields of a request body. -/
def bodyLines (forceOptional : Bool) (fields : List Field) : List Text :=
  match fields with
  | [] => [indent 6 "// Add validation fields"]
  | f :: fs => (f :: fs).map fun f =>
      indent 6 (f.name ++ ": " ++ Zod.expression forceOptional f ++ [','])

/-- The path parameters of a request for one document, up to the closing of the object. -/
def idParams : List Text :=
  [indent 4 ("params: z.object(" ++ lb), indent 6 "id: z.string(),"]

/-- A request: its parts between the opening and the closing line. -/
def request (name : Text) (parts : List Text) : List Text :=
  [indent 2 (name ++ ": z.object(" ++ lb)] ++ parts ++ [indent 2 (rb ++ "),")]

/-- The closing of an object inside a request, followed by more. -/
def closing (more : Text) : Text := indent 4 (rb ++ ")" ++ more ++ ",")

/-- A request with a body. -/
def bodyRequest (name : Text) (body : List Text) (idClosing : Text) : List Text :=
  request name
    ([indent 4 ("body: z.object(" ++ lb)] ++ body ++ [closing []] ++ idParams ++ [idClosing])

/-- The lines of the validation file. -/
def fileLines (b : Blueprint) : List Text :=
  [importNames ["z"] "zod", []] ++ (Field.nested b.fields).flatMap itemLines ++
    [opening ("export const " ++ b.names.className ++ "Validations =")] ++
    bodyRequest "create" (bodyLines false b.fields) (closing ".optional()") ++ [[]] ++
    bodyRequest "update" (bodyLines true b.fields) (closing []) ++ [[]] ++
    request "getById" (idParams ++ [closing []]) ++ [[]] ++
    request "getAll"
      [indent 4 ("query: z.object(" ++ lb), indent 6 "page: z.string().optional(),",
        indent 6 "limit: z.string().optional(),", indent 6 "sortBy: z.string().optional(),",
        indent 6 "sortOrder: z.string().optional(),", closing ".optional()"] ++ [[]] ++
    request "delete" (idParams ++ [closing []]) ++
    [rb ++ ";", []]

/-- The validation file. -/
def file (b : Blueprint) : Text := Text.lines (fileLines b)

end Scaffold.Validation
