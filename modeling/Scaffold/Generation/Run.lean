import Scaffold.Field.Audit
import Scaffold.Field.Token
import Scaffold.Generation.Folder
import Scaffold.Generation.Registration
import Scaffold.Generation.Report

/-!
# Generating a module

From tokens to a documented module: the tokens are parsed, the input is checked, the files are
rendered and written, the module is registered and documented.  A check that fails, a module without
fields and a folder that is there already end the generation; registering and documenting can only
add warnings.
-/

namespace Scaffold

/-- What is generated with. -/
structure Generator where
  settings : Settings
  strict : Bool
  client : Option Client

namespace Generator

/-- What is said when no field was given. -/
def noFields : Text := "No fields were parsed. Check your command syntax."

/-- How a command looks. -/
def usageExample : Text :=
  "Example: modgen generate User name:string email:string age:number"

/-- The record of preparing to generate. -/
def preparing (g : Generator) : Log.Record :=
  ⟨.debug, .pipeline, "ModuleGenerator initialised: " ++ g.settings.shown ++ ", strict=" ++
    (if g.strict then "True".toList else "False".toList) ++ "."⟩

/-! ## Checking -/

/-- The findings about the input; strict generation takes the warnings of parsing as errors and
leaves the rest of its remarks out. -/
def findings (strict : Bool) (name : Text) (p : Parsed) : Diagnostics :=
  Names.audit name ++ Field.auditDiagnostics p.fields ++ Artifact.auditSkipped p.skipped ++
    if strict then p.diagnostics.warnings.map Diagnostic.asError else p.diagnostics

/-- The remark on findings. -/
def findingsDetail (ds : Diagnostics) : Text :=
  if ds.hasErrors then Text.ofNat ds.errors.length ++ " error(s)"
  else if ds.hasWarnings then Text.ofNat ds.warnings.length ++ " warning(s)"
  else "all checks passed"

/-- The report with findings. -/
def reportFindings (r : Report) (ds : Diagnostics) : Report :=
  { r with
    validationErrors := ds.errors.map Diagnostic.text
    validationWarnings := ds.warnings.map Diagnostic.text }.withStage
      { name := "Validate Input", success := !ds.hasErrors, detail := findingsDetail ds }

/-- The records of findings. -/
def findingsRecords (ds : Diagnostics) : List Log.Record :=
  (ds.warnings.map fun d => ⟨.warning, .pipeline, "  ⚠ " ++ d.text⟩) ++
    if ds.hasErrors then
      ⟨.error, .pipeline, "Validation failed with " ++ Text.ofNat ds.errors.length ++ " error(s)."⟩ ::
        ds.errors.map fun d => ⟨.error, .pipeline, "  ✗ " ++ d.text⟩
    else []

/-- Checks the input. -/
def check (strict : Bool) (name : Text) (p : Parsed) : Act Diagnostics := do
  let ds ← Timing.timed "validation" do
    Act.say [Field.auditRecord p.fields]
    return findings strict name p
  Act.say (findingsRecords ds)
  return ds

/-! ## Rendering and writing -/

/-- Renders the files of a module. -/
def render (b : Blueprint) (skipped : List Text) : Act (List (Artifact × Text)) :=
  Timing.timed "render" do
    Act.say (Bundle.blueprintRecord b :: Bundle.records b skipped)
    return Bundle.render b skipped

/-- The report with the rendered files. -/
def reportRendered (r : Report) (files : List (Artifact × Text)) : Report :=
  let lines := files.foldr (fun f n => Text.countLines f.2 + n) 0
  let detail := Text.ofNat files.length ++ " artifact(s), ~" ++ Text.grouped lines ++ " lines"
  r.withStage { name := "Render Artifacts", detail }

/-- The report with the written files. -/
def reportFolder (r : Report) (f : FolderResult) : Report :=
  let detail : Text := if f.existed then "module already exists"
    else Text.ofNat f.files.length ++ " file(s), " ++ Text.grouped f.size ++ " bytes"
  { r with
    folder := f.folder, existed := f.existed, written := f.paths,
    exportErrors := f.errors, warnings := r.warnings ++ f.warnings,
    fileCount := f.files.length, byteCount := f.size, lineCount := f.lines }.withStage
      { name := "Export to Filesystem", success := f.success, detail }

/-! ## Registering and documenting -/

/-- The remark on a registration. -/
def registrationDetail (x : RegistrationResult) : Text :=
  if x.changed then "import and route registered"
  else if x.error.isSome || !x.warnings.isEmpty then "not patched"
  else "already registered"

/-- The report with the registration. -/
def reportRegistration (r : Report) (x : RegistrationResult) : Report :=
  { r with
    routerChanged := x.changed
    warnings := r.warnings ++ x.warnings ++ x.error.toList }.withStage
      { name := "Patch Router", success := x.error.isNone, detail := registrationDetail x }

/-- The remark on the documentation. -/
def documentationDetail (x : DocumentationResult) : Text :=
  let parts : List Text :=
    (if x.collectionPath.isSome then ["postman".toList] else []) ++
      (if x.synced then ["postman api".toList] else []) ++
      (if x.documentPath.isSome then ["swagger".toList] else [])
  match parts with
  | [] => "nothing updated"
  | parts => Text.join ", " parts

/-- The report with the documentation. -/
def reportDocumentation (r : Report) (x : DocumentationResult) : Report :=
  { r with
    documentation := some x
    warnings := r.warnings ++ x.errors }.withStage
      { name := "Update Documentation", success := x.success, detail := documentationDetail x }

/-! ## All together -/

/-- Registers and documents a module whose files are written. -/
def finish (g : Generator) (n : Names) (p : Parsed) (r : Report) : Act Report := do
  let x ← Timing.timed "router" (Registration.register g.settings n)
  let r := reportRegistration r x
  let r ← if g.settings.updateCollection || g.settings.updateDocument then do
      let x ← Timing.timed "documentation" (Documentation.update g.settings n p.fields g.client)
      pure (reportDocumentation r x)
    else pure r
  Act.say [⟨.info, .pipeline, "Module '" ++ n.className ++ "' created successfully!"⟩]
  return r

/-- Generates a module from checked input. -/
def produce (g : Generator) (n : Names) (p : Parsed) (r : Report) : Act Report := do
  if p.fields.isEmpty then
    Act.say [⟨.warning, .pipeline, noFields⟩, ⟨.warning, .pipeline, usageExample⟩]
    return { r with noOp := true, warnings := r.warnings ++ [noFields, usageExample] }
  else
    let files ← render (.ofFields n p.fields p.upload) p.skipped
    let r := reportRendered r files
    let f ← Timing.timed "export" (ModuleFolder.write true g.settings n files p.upload)
    let r := reportFolder r f
    if f.existed || !f.created then return r else finish g n p r

/-- Generates a module from parsed tokens. -/
def generateParsed (g : Generator) (name : Text) (p : Parsed) : Act Report := do
  let r : Report := { moduleName := name, fieldCount := p.fields.length, skipped := p.skipped }
  let ds ← check g.strict name p
  let r := reportFindings r ds
  if ds.hasErrors then return r.closed
  else match Names.ofRaw? name with
    | none => throw .noModuleName
    | some n => return (← produce g n p { r with className := n.className }).closed

/-- The part of a report about parsing. -/
def parseStage (p : Parsed) : Stage :=
  let dropped := p.diagnostics.warnings.length
  { name := "Parse Fields",
    detail := Text.ofNat p.fields.length ++ " field(s), " ++ Text.ofNat dropped ++ " dropped token(s)" }

/-- Generates a module from its name and tokens. -/
def generate (g : Generator) (name : Text) (tokens : List Text) : Act Report := do
  let p ← Timing.timed "parse" do
    Act.say (Parsed.records tokens)
    return Parsed.ofTokens tokens
  let r ← generateParsed g name p
  return { r with stages := parseStage p :: r.stages }

end Generator

end Scaffold
