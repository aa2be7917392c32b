import Scaffold.Artifact.Blueprint
import Scaffold.Artifact.Code

/-!
# The controller, service, route and constants files

The files that carry no types of their own.  The controller answers requests, the service talks to
the model, the route file connects paths to handlers, and the constants name the fields by which
documents are found.  Where a module handles uploads, uploaded files are removed whenever the
document that refers to them is refused, replaced or deleted.
-/

namespace Scaffold

open Code

/-- The object that exports the five operations of a module. -/
def exportedOperations (cls symbol : Text) : List Text :=
  [opening ("export const " ++ symbol ++ " ="), indent 2 ("create" ++ cls ++ ","),
    indent 2 ("update" ++ cls ++ ","), indent 2 ("delete" ++ cls ++ ","),
    indent 2 ("get" ++ cls ++ ","), indent 2 ("getAll" ++ cls ++ "s,"), rb ++ ";", []]

/-! ## Controller -/

namespace Controller

/-- One handler: what it does first, the call of the service, and the answer. -/
def handler (cls name call status message : Text) (preparation : List Text) : List Text :=
  ["const " ++ name ++ " = catchAsync(async (req: Request, res: Response) => " ++ lb] ++ preparation ++
    [indent 4 ("const result = await " ++ cls ++ "Services." ++ call ++ ";"),
      indent 4 ("sendResponse(res, " ++ lb), indent 6 ("statusCode: StatusCodes." ++ status ++ ","),
      indent 6 "success: true,", indent 6 ("message: '" ++ message ++ "',"),
      indent 6 "data: result,", indent 4 (rb ++ ");"), rb ++ ");", []]

/-- Takes the data of a document from a request; of uploaded files the first one is kept. -/
def bodyLines (b : Blueprint) : List Text :=
  let data := b.names.folder ++ "Data"
  if b.usesUpload then
    let key := b.uploadField
    [indent 4 ("const " ++ Text.braced (key ++ ", ..." ++ data) ++ " = req.body;"),
      indent 4 (opening ("if (" ++ key ++ "?.length > 0)")),
      indent 6 (data ++ "." ++ key ++ " = " ++ key ++ "[0];"), indent 4 rb]
  else [indent 4 ("const " ++ data ++ " = req.body;")]

/-- Takes the identity of a document from a request. -/
def idLine : Text := indent 4 ("const " ++ Text.braced "id" ++ " = req.params;")

/-- The lines of the controller file. -/
def fileLines (b : Blueprint) : List Text :=
  let cls := b.names.className
  let folder := b.names.folder
  let data := folder ++ "Data"
  [importNames ["Request", "Response"] "express",
    importNames [cls ++ "Services"] ("./" ++ folder ++ ".service"),
    importDefault "catchAsync" "../../../shared/catchAsync",
    importDefault "sendResponse" "../../../shared/sendResponse",
    importNames ["StatusCodes"] "http-status-codes", []] ++
    handler cls ("create" ++ cls) ("create" ++ cls ++ "(" ++ data ++ ")") "CREATED"
      (cls ++ " created successfully") (bodyLines b) ++
    handler cls ("update" ++ cls) ("update" ++ cls ++ "(id, " ++ data ++ ")") "OK"
      (cls ++ " updated successfully") (idLine :: bodyLines b) ++
    handler cls ("delete" ++ cls) ("delete" ++ cls ++ "(id)") "OK"
      (cls ++ " deleted successfully") [idLine] ++
    handler cls ("get" ++ cls) ("get" ++ cls ++ "(id)") "OK"
      (cls ++ " retrieved successfully") [idLine] ++
    handler cls ("getAll" ++ cls ++ "s") ("getAll" ++ cls ++ "s()") "OK"
      (cls ++ "s retrieved successfully") [] ++
    exportedOperations cls (cls ++ "Controller")

/-- The controller file. -/
def file (b : Blueprint) : Text := Text.lines (fileLines b)

end Controller

/-! ## Service -/

namespace Service

/-- Imports the removal of uploaded files. -/
def helperImport : Text := importNames ["removeUploadedFiles"] "../../../helpers/fileHelper"

/-- Lines that only a module with uploads has. -/
def onUpload (b : Blueprint) (ls : List Text) : List Text := if b.usesUpload then ls else []

/-- Removes the files that a value refers to. -/
def removal (width : Nat) (value key : Text) : Text :=
  indent width ("removeUploadedFiles(" ++ value ++ "." ++ key ++ ");")

/-- Refuses with a status and a message. -/
def refusal (status message : Text) : Text :=
  indent 4 ("throw new ApiError(StatusCodes." ++ status ++ ", '" ++ message ++ "');")

/-- The promise of a document. -/
def promise (cls more : Text) : Text := "Promise<I" ++ cls ++ more ++ ">"

/-- The end of an operation. -/
def operationEnd : List Text := [indent 2 "return result;", rb ++ ";", []]

/-- Creates a document. -/
def createLines (b : Blueprint) : List Text :=
  let cls := b.names.className
  ["const create" ++ cls ++ " = async (payload: I" ++ cls ++ "): " ++ promise cls [] ++ " => " ++ lb,
    indent 2 ("const result = await " ++ cls ++ ".create(payload);"),
    indent 2 (opening "if (!result)")] ++
    onUpload b [removal 4 "payload" b.uploadField] ++
    [refusal "BAD_REQUEST" ("Failed to create " ++ b.names.folder), indent 2 rb] ++ operationEnd

/-- Updates a document. -/
def updateLines (b : Blueprint) : List Text :=
  let cls := b.names.className
  let key := b.uploadField
  ["const update" ++ cls ++ " = async (", indent 2 "id: string,",
    indent 2 ("payload: Partial<I" ++ cls ++ ">,"), "): " ++ promise cls " | null" ++ " => " ++ lb,
    indent 2 ("const isExist = await " ++ cls ++ ".findById(new Types.ObjectId(id));"),
    indent 2 (opening "if (!isExist)")] ++
    onUpload b [removal 4 "payload" key] ++
    [refusal "NOT_FOUND" (cls ++ " not found"), indent 2 rb,
      indent 2 ("const result = await " ++ cls ++ ".findOneAndUpdate(" ++ Text.braced "_id: id" ++
        ", payload, " ++ lb),
      indent 4 "new: true,", indent 2 (rb ++ ");")] ++
    onUpload b [indent 2 (opening ("if (payload." ++ key ++ " && isExist." ++ key ++ ")")),
      removal 4 "isExist" key, indent 2 rb] ++
    operationEnd

/-- Deletes a document. -/
def deleteLines (b : Blueprint) : List Text :=
  let cls := b.names.className
  ["const delete" ++ cls ++ " = async (id: string): " ++ promise cls " | null" ++ " => " ++ lb,
    indent 2 ("const result = await " ++ cls ++ ".findByIdAndDelete(new Types.ObjectId(id));"),
    indent 2 (opening "if (!result)"),
    refusal "BAD_REQUEST" ("Failed to delete " ++ b.names.folder ++ "."), indent 2 rb] ++
    onUpload b [removal 2 "result" b.uploadField] ++ operationEnd

/-- Reads one document. -/
def getLines (b : Blueprint) : List Text :=
  let cls := b.names.className
  ["const get" ++ cls ++ " = async (id: string): " ++ promise cls " | null" ++ " => " ++ lb,
    indent 2 ("const result = await " ++ cls ++ ".findById(new Types.ObjectId(id));"),
    indent 2 (opening "if (!result)"),
    refusal "NOT_FOUND" ("Requested " ++ b.names.folder ++ " not found."), indent 2 rb] ++
    operationEnd

/-- Reads all documents. -/
def getAllLines (cls : Text) : List Text :=
  ["const getAll" ++ cls ++ "s = async (): " ++ promise cls "[]" ++ " => " ++ lb,
    indent 2 ("const result = await " ++ cls ++ ".find();")] ++ operationEnd

/-- The lines of the service file. -/
def fileLines (b : Blueprint) : List Text :=
  let cls := b.names.className
  let folder := b.names.folder
  [importNames ["StatusCodes"] "http-status-codes",
    importDefault "ApiError" "../../../errors/ApiError",
    importNames ["I" ++ cls] ("./" ++ folder ++ ".interface"),
    importNames [cls] ("./" ++ folder ++ ".model"), importNames ["Types"] "mongoose"] ++
    onUpload b [helperImport] ++ [[]] ++
    createLines b ++ updateLines b ++ deleteLines b ++ getLines b ++ getAllLines cls ++
    exportedOperations cls (cls ++ "Services")

/-- The service file. -/
def file (b : Blueprint) : Text := Text.lines (fileLines b)

end Service

/-! ## Route -/

namespace Route

/-- The roles that every route asks for. -/
def authLines : List Text :=
  [indent 2 "auth(", indent 4 "USER_ROLES.SUPER_ADMIN,", indent 4 "USER_ROLES.ADMIN", indent 2 "),"]

/-- One route: its method and path, what a request passes through, and its handler. -/
def route (cls method path : Text) (middleware : List Text) (action : Text) : List Text :=
  ["router." ++ method ++ "(", indent 2 ("'" ++ path ++ "',")] ++ authLines ++
    (middleware.map fun m => indent 2 (m ++ ",")) ++
    [indent 2 (cls ++ "Controller." ++ action), ");", []]

/-- The lines of the route file. -/
def fileLines (b : Blueprint) : List Text :=
  let cls := b.names.className
  let folder := b.names.folder
  let processing : List Text :=
    if b.usesUpload then ["fileAndBodyProcessorUsingDiskStorage()"] else []
  [importDefault "express" "express",
    importNames [cls ++ "Controller"] ("./" ++ folder ++ ".controller"),
    importNames [cls ++ "Validations"] ("./" ++ folder ++ ".validation"),
    importDefault "validateRequest" "../../middleware/validateRequest",
    importDefault "auth" "../../middleware/auth",
    importNames ["USER_ROLES"] "../../../enum/user"] ++
    (if b.usesUpload then
      [importNames ["fileAndBodyProcessorUsingDiskStorage"] "../../middleware/processReqBody"]
    else []) ++
    [[], "const router = express.Router();", []] ++
    route cls "get" "/" [] ("getAll" ++ cls ++ "s") ++
    route cls "get" "/:id" [] ("get" ++ cls) ++
    route cls "post" "/" (processing ++ ["validateRequest(" ++ cls ++ "Validations.create)"])
      ("create" ++ cls) ++
    route cls "patch" "/:id" (processing ++ ["validateRequest(" ++ cls ++ "Validations.update)"])
      ("update" ++ cls) ++
    route cls "delete" "/:id" [] ("delete" ++ cls) ++
    ["export const " ++ cls ++ "Routes = router;", []]

/-- The route file. -/
def file (b : Blueprint) : Text := Text.lines (fileLines b)

end Route

/-! ## Constants -/

namespace Constants

/-- The names of fields as a list of literals. -/
def nameList (fields : List Field) : Text :=
  '[' :: Text.join ", " (fields.map fun f => '\'' :: f.name ++ ['\'']) ++ [']']

/-- The lines of the constants file. -/
def fileLines (b : Blueprint) : List Text :=
  let cls := b.names.className
  let folder := b.names.folder
  ["// Filterable fields for " ++ cls,
    "export const " ++ folder ++ "Filterables = " ++ nameList b.filterable ++ ";", [],
    "// Searchable fields for " ++ cls,
    "export const " ++ folder ++ "SearchableFields = " ++ nameList b.searchable ++ ";", [],
    "// Helper function for set comparison",
    "export const isSetEqual = (setA: Set<string>, setB: Set<string>): boolean => " ++ lb,
    indent 2 "if (setA.size !== setB.size) return false;", indent 2 (opening "for (const item of setA)"),
    indent 4 "if (!setB.has(item)) return false;", indent 2 rb, indent 2 "return true;", rb ++ ";", []]

/-- The constants file. -/
def file (b : Blueprint) : Text := Text.lines (fileLines b)

end Constants

/-! ## The shared upload helper -/

namespace UploadHelper

/-- The name of the helper file. -/
def fileName : Text := "fileHelper.ts"

/-- Removes a file if it exists, and reports what goes wrong. -/
def guardedRemoval (path : Text) (before : List Text) : List Text :=
  [indent 4 (opening "try")] ++ before ++
    [indent 6 (opening ("if (fs.existsSync(" ++ path ++ "))")),
      indent 8 ("fs.unlinkSync(" ++ path ++ ");"), indent 6 rb,
      indent 4 (opening (rb ++ " catch (error)")),
      indent 6 "console.error('Error removing file:', error);", indent 4 rb]

/-- The lines of the helper file. -/
def fileLines : List Text :=
  [importDefault "fs" "fs", importDefault "path" "path", [],
    "export const removeUploadedFiles = (file: any) => " ++ lb, indent 2 "if (!file) return;", [],
    indent 2 (opening "if (Array.isArray(file))"), indent 4 "file.forEach(f => removeUploadedFiles(f));",
    indent 4 "return;", indent 2 rb, [],
    indent 2 "// Multer file object",
    indent 2 (opening "if (typeof file === 'object' && file.path)")] ++
    guardedRemoval "file.path" [] ++
    [indent 4 "return;", indent 2 rb, [],
      indent 2 "// Stored relative path", indent 2 (opening "if (typeof file === 'string')")] ++
    guardedRemoval "filePath" [indent 6 "const filePath = path.join(process.cwd(), file);"] ++
    [indent 2 rb, rb ++ ";", []]

/-- The helper file. -/
def file : Text := Text.lines fileLines

end UploadHelper

end Scaffold
