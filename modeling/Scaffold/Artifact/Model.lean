import Scaffold.Artifact.Blueprint
import Scaffold.Artifact.Code
import Scaffold.Types.Mongoose

/-!
# The model file

The Mongoose schema of a module.  The schemas of the items of lists of objects come first, so that
each is declared before it is used.
-/

namespace Scaffold.Model

open Code

/-- The fields of a schema, one line each. -/
def fieldLine (f : Field) : Text := indent 2 (f.name ++ ": " ++ Mongoose.expression true f ++ [','])

/-- The schema of the items of a list of objects. -/
def itemLines (f : Field) : List Text :=
  ["const " ++ f.itemSchemaName ++ " = new Schema(" ++ lb] ++
    (Field.visible f.children).map fieldLine ++
    [rb ++ ", " ++ Text.braced "_id: false" ++ ");", []]

/-- The lines of the model file. -/
def fileLines (b : Blueprint) : List Text :=
  let cls := b.names.className
  let folder := b.names.folder
  let document := "<I" ++ cls ++ ", " ++ cls ++ "Model>"
  [importNames ["Schema", "model"] "mongoose",
    importNames ["I" ++ cls, cls ++ "Model"] ("./" ++ folder ++ ".interface"), []] ++
    (Field.nested b.fields).flatMap itemLines ++
    ["const " ++ folder ++ "Schema = new Schema" ++ document ++ "(" ++ lb] ++
    (match b.fields with
      | [] => [indent 2 "// Define schema fields here"]
      | f :: fs => (f :: fs).map fieldLine) ++
    [rb ++ ", " ++ lb, indent 2 "timestamps: true", rb ++ ");", [],
      "export const " ++ cls ++ " = model" ++ document ++ "('" ++ cls ++ "', " ++ folder ++
        "Schema);", []]

/-- The model file. -/
def file (b : Blueprint) : Text := Text.lines (fileLines b)

end Scaffold.Model
