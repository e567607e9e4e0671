import RecordAccess.Engine.Basic
import RecordAccess.Error.Basic

/-!
# Configuration

The settings of a program that hosts the engine: of the engine itself, of the database behind the
providers, and of logging.  `Configuration.problem?` names the first thing that cannot work.
-/

namespace RecordAccess

/-- How the database is reached. -/
structure DatabaseSettings where
  url : String
  maxConnections : Nat := 10
  minConnections : Nat := 1
  /-- How long to wait for a connection, in nanoseconds. -/
  acquireTimeout : Nat := 5000000000
deriving DecidableEq, Inhabited

/-- The forms of log lines. -/
inductive LogFormat
  | json
  | pretty
  | compact
deriving DecidableEq, Inhabited

/-- The name used in settings. -/
def LogFormat.name : LogFormat → String
  | .json => "json"
  | .pretty => "pretty"
  | .compact => "compact"

/-- What is logged, and how. -/
structure LoggingSettings where
  /-- The level directives that hold everywhere. -/
  level : String := "info"
  format : LogFormat := .json
  /-- Levels by module, sorted and without repetitions. -/
  moduleLevels : List (String × String) := []
  includeLocation : Bool := false
  includeTarget : Bool := true
  logSpanClose : Bool := false
  stderr : Bool := false
deriving DecidableEq, Inhabited

/-- The form that is used: in development, people read the lines. -/
def LoggingSettings.effectiveFormat (l : LoggingSettings) (environment : String) : LogFormat :=
  if environment = "development" ∧ l.format = .json then .pretty else l.format

/-- Who logs, and what. -/
structure TelemetrySettings where
  serviceName : String := "sharing-core"
  environment : String := "development"
  logging : LoggingSettings := {}
deriving DecidableEq, Inhabited

/-- All settings. -/
structure Configuration where
  engine : EngineSettings := {}
  database : Option DatabaseSettings := none
  telemetry : TelemetrySettings := {}
deriving DecidableEq, Inhabited

namespace Configuration

/-- The first thing in the settings of a database that cannot work. -/
def databaseProblem? (d : DatabaseSettings) : Option String :=
  if d.url = "" then some "database.url must not be empty"
  else if d.maxConnections < d.minConnections then
    some "database.min_connections exceeds database.max_connections"
  else none

/-- The first setting that cannot work. -/
def problem? (c : Configuration) : Option String :=
  if c.engine.maxGroupDepth = 0 then some "sharing.max_group_depth must be at least 1"
  else c.database.bind databaseProblem?

/-- The configuration itself, or the error that names its problem. -/
def validate (c : Configuration) : Except AccessError Configuration :=
  match c.problem? with
  | none => .ok c
  | some text => .error (.configuration text)

end Configuration

end RecordAccess
