import Scaffold.Check
import Scaffold.Json.Access
import Scaffold.Json.Reader
import Scaffold.Remote.Basic
import Scaffold.Text.Utf8

/-!
# Failures

Everything that can stop an operation, by its cause.  `Failure.message` is the only place where a
cause is put into words.
-/

namespace Scaffold

/-- The outcomes of file operations other than success. -/
inductive Errno where
  | noEntry
  | inputOutput
  | permission
  | fileExists
  | notDirectory
  | isDirectory
  | noSpace
  | nameTooLong
  deriving DecidableEq, Repr

namespace Errno

/-- The number of an outcome. -/
def number : Errno → Nat
  | noEntry => 2
  | inputOutput => 5
  | permission => 13
  | fileExists => 17
  | notDirectory => 20
  | isDirectory => 21
  | noSpace => 28
  | nameTooLong => 36

/-- An outcome in words. -/
def text : Errno → Text
  | noEntry => "No such file or directory"
  | inputOutput => "Input/output error"
  | permission => "Permission denied"
  | fileExists => "File exists"
  | notDirectory => "Not a directory"
  | isDirectory => "Is a directory"
  | noSpace => "No space left on device"
  | nameTooLong => "File name too long"

/-- The class of an outcome. -/
def category : Errno → Text
  | noEntry => "FileNotFoundError"
  | permission => "PermissionError"
  | fileExists => "FileExistsError"
  | notDirectory => "NotADirectoryError"
  | isDirectory => "IsADirectoryError"
  | _ => "OSError"

end Errno

/-- A file operation that failed: its path, if it had one, and for a renaming the path that the
file should have had. -/
structure OsError where
  errno : Errno
  path : Option Text
  target : Option Text
  deriving DecidableEq, Repr

/-- The number, the outcome and the paths. -/
def OsError.message (e : OsError) : Text :=
  "[Errno " ++ Text.ofNat e.errno.number ++ "] " ++ e.errno.text ++
    (match e.path with
      | some p => ": " ++ Text.quoted p
      | none => []) ++
    match e.target with
    | some t => " -> " ++ Text.quoted t
    | none => []

/-- Everything that can stop an operation. -/
inductive Failure where
  /-- A file operation failed. -/
  | os (e : OsError)
  /-- A path holds the character that ends paths. -/
  | nullInPath
  /-- A file is no text. -/
  | encoding (e : Utf8.DecodeError)
  /-- A text is no document. -/
  | document (e : Json.ParseError)
  /-- A file is no document. -/
  | documentFile (path : Text) (e : Json.ParseError)
  /-- A document has an unexpected shape. -/
  | misfit (m : Misfit)
  /-- A field definition is refused. -/
  | definition (issues : List Issue)
  /-- A settings file does not exist. -/
  | noSettingsFile (path : Text)
  /-- The settings file that was asked for does not exist. -/
  | settingsFileMissing (path : Text)
  /-- A settings file cannot be read. -/
  | settingsSyntax (path : Text)
  /-- A settings file holds something else than settings. -/
  | settingsNotMapping (path kind : Text)
  /-- Settings are refused. -/
  | settings (issues : List Issue)
  /-- A module has no name. -/
  | noModuleName
  /-- There is no key for the remote service. -/
  | noApiKey
  /-- The remote service failed. -/
  | remote (f : RemoteFault)
  /-- A document with an infinite number cannot be sent. -/
  | infiniteNumber

namespace Failure

/-- A failure in words. -/
def message : Failure → Text
  | os e => e.message
  | nullInPath => "embedded null byte"
  | encoding e => e.message
  | document e => e.message
  | documentFile path e => "Invalid JSON in " ++ path ++ ": " ++ e.message
  | misfit m => m.message
  | definition _ => []
  | noSettingsFile path | settingsFileMissing path => "Config file not found: " ++ path
  | settingsSyntax path => "Invalid YAML in " ++ path
  | settingsNotMapping path kind =>
    "Expected a mapping at top level of " ++ path ++ ", got " ++ kind ++ "."
  | settings _ => "Invalid configuration"
  | noModuleName => "Module name must not be empty."
  | noApiKey => "A Postman API key is required."
  | remote f => f.message
  | infiniteNumber => "Out of range float values are not JSON compliant"

/-- Whether a failure says that a folder on the way does not exist. -/
def isNoEntry : Failure → Bool
  | os e => e.errno == .noEntry
  | _ => false

/-- Whether a failure is one of the file system. -/
def isOs : Failure → Bool
  | os _ => true
  | noSettingsFile _ => true
  | _ => false

/-- Whether a failure says that a value is not acceptable. -/
def isBadValue : Failure → Bool
  | nullInPath | encoding _ | document _ | documentFile _ _ | definition _ | settingsFileMissing _ |
    settingsSyntax _ | settingsNotMapping _ _ | settings _ | noModuleName | noApiKey |
    infiniteNumber => true
  | misfit (.wrongLength _ _) => true
  | _ => false

end Failure

end Scaffold
