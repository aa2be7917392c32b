import Scaffold.Generation.Documentation
import Scaffold.Number.Shortest

/-!
# The report of a generation

Everything that was done for one module, and the summary that is printed at the end.
-/

namespace Scaffold

/-- A part of a generation: whether it succeeded, how long it took, and a remark. -/
structure Stage where
  name : Text := []
  success : Bool := true
  elapsed : Binary64 := .ofInt 0
  detail : Text := []

/-- Everything that was done for one module. -/
structure Report where
  success : Bool := false
  moduleName : Text := []
  className : Text := []
  folder : Text := []
  noOp : Bool := false
  existed : Bool := false
  routerChanged : Bool := false
  fieldCount : Nat := 0
  fileCount : Nat := 0
  byteCount : Nat := 0
  lineCount : Nat := 0
  elapsed : Binary64 := .ofInt 0
  stages : List Stage := []
  validationErrors : List Text := []
  validationWarnings : List Text := []
  generationErrors : List Text := []
  exportErrors : List Text := []
  warnings : List Text := []
  skipped : List Text := []
  written : List Text := []
  documentation : Option DocumentationResult := none

namespace Report

/-- Whether any part reported an error that counts against the generation. -/
def hasErrors (r : Report) : Bool :=
  !(r.validationErrors.isEmpty && r.generationErrors.isEmpty && r.exportErrors.isEmpty)

/-- The report with its outcome. -/
def closed (r : Report) : Report := { r with success := !r.hasErrors }

/-- The report with one more part. -/
def withStage (r : Report) (s : Stage) : Report := { r with stages := r.stages ++ [s] }

/-! ## The summary -/

/-- A line across the summary. -/
def rule (c : Char) : Text := List.replicate 60 c

/-- The outcome in words. -/
def status (r : Report) : Text :=
  if !r.success then "❌ FAILED"
  else if r.noOp then "⚠ NOTHING TO DO"
  else if r.existed then "⚠ SKIPPED (module exists)"
  else "✅ SUCCESS"

/-- The line of a part: its name filled up to a width, its time and its remark. -/
def stageLine (s : Stage) : Text :=
  "    " ++ (if s.success then ['✓'] else ['✗']) ++ ' ' :: Text.padRight 28 s.name ++ ' ' ::
    Text.padLeft 7 ' ' (s.elapsed.fixed 3) ++ "s  " ++ s.detail

/-- The lines of a list of messages; an empty list has none. -/
def sectionLines (title : Text) (icon : Char) (items : List Text) : List Text :=
  match items with
  | [] => []
  | items =>
    [rule '─', "  " ++ title ++ " (" ++ Text.ofNat items.length ++ "):"] ++
      items.map fun item => "    " ++ icon :: ' ' :: item

/-- The figures of a report. -/
def figureLines (r : Report) : List Text :=
  ["  Status:           " ++ r.status,
    "  Module:           " ++ (if r.className.isEmpty then r.moduleName else r.className),
    "  Directory:        " ++ r.folder,
    "  Fields:           " ++ Text.ofNat r.fieldCount,
    "  Files generated:  " ++ Text.ofNat r.fileCount,
    "  Total lines:      " ++ Text.grouped r.lineCount,
    "  Total bytes:      " ++ Text.grouped r.byteCount,
    "  Router updated:   " ++ (if r.routerChanged then "yes".toList else "no".toList),
    "  Total time:       " ++ r.elapsed.fixed 3 ++ ['s']]

/-- The lines of the summary. -/
def summaryLines (r : Report) : List Text :=
  [rule '=', "  modgen - Generation Report", rule '='] ++ r.figureLines ++ [rule '─'] ++
    (match r.stages with
      | [] => []
      | stages => ("  Pipeline Steps:" : Text) :: stages.map stageLine) ++
    sectionLines "Validation Errors" '✗' r.validationErrors ++
    sectionLines "Validation Warnings" '⚠' r.validationWarnings ++
    sectionLines "Generation Errors" '✗' r.generationErrors ++
    sectionLines "Export Errors" '✗' r.exportErrors ++
    sectionLines "Warnings" '⚠' r.warnings ++
    sectionLines "Skipped Artifacts" '⊘' r.skipped ++ [rule '=']

/-- The summary of a report. -/
def summary (r : Report) : Text := Text.lines r.summaryLines

end Report

end Scaffold
