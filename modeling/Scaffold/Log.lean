import Scaffold.Text.Basic

/-!
# Log records

What the generator tells its user on the way: a level, the part of the program that speaks, and a
message.  Every record is kept; which ones are shown is decided by the level alone, at the end.
-/

namespace Scaffold.Log

/-- How important a record is. -/
inductive Level where
  | debug
  | info
  | warning
  | error
  deriving DecidableEq, Repr

/-- The rank of a level. -/
def Level.rank : Level → Nat
  | debug => 10
  | info => 20
  | warning => 30
  | error => 40

/-- The name of a level. -/
def Level.name : Level → Text
  | debug => "DEBUG"
  | info => "INFO"
  | warning => "WARNING"
  | error => "ERROR"

/-- The level with a name. -/
def Level.ofName? (t : Text) : Option Level :=
  ([debug, info, warning, error] : List Level).find? fun l => l.name = t

/-- The parts of the program that write records. -/
inductive Channel where
  | command
  | files
  | tokens
  | checks
  | templates
  | routerFile
  | moduleFolder
  | collection
  | remote
  | openApi
  | documentation
  | settings
  | pipeline
  deriving DecidableEq, Repr

/-- The name of a channel. -/
def Channel.name : Channel → Text
  | command => "modgen"
  | files => "modgen.utils"
  | tokens => "modgen.parser"
  | checks => "modgen.validators"
  | templates => "modgen.templates"
  | routerFile => "modgen.router"
  | moduleFolder => "modgen.exporters"
  | collection => "modgen.postman"
  | remote => "modgen.postman_api"
  | openApi => "modgen.swagger"
  | documentation => "modgen.docs"
  | settings => "modgen.config"
  | pipeline => "modgen.generator"

/-- One record. -/
structure Record where
  level : Level
  channel : Channel
  message : Text
  deriving DecidableEq, Repr

/-- A record on one line. -/
def Record.line (r : Record) : Text :=
  Text.padRight 8 r.level.name ++ " │ " ++ r.channel.name ++ " │ " ++ r.message

/-- The records that a least level lets through. -/
def shown (least : Level) (records : List Record) : List Record :=
  records.filter fun r => least.rank ≤ r.level.rank

end Scaffold.Log
