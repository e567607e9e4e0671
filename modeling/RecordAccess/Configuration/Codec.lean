import RecordAccess.Codec.Models
import RecordAccess.Configuration.Basic
import RecordAccess.Configuration.Duration

/-!
# Configuration in documents

Settings are read from any document; every one but the address of the database has a default.
-/

namespace RecordAccess

variable {ν : Type} [Document ν]

/-- Reads the settings of the engine. -/
def EngineSettings.read? (d : ν) : Option EngineSettings := do
  let f ← Document.fields? ["max_group_depth", "manager_scope"] d
  pure
    { maxGroupDepth := ← f.withDefault "max_group_depth" 10 Document.nat?
      managerScope := ← f.withDefault "manager_scope" .direct ManagerScope.read? }

/-- Reads a form of log lines. -/
def LogFormat.read? (d : ν) : Option LogFormat :=
  chosen? [.json, .pretty, .compact] LogFormat.name d

/-- Reads texts by name; of repeated names the last counts. -/
def textsByName? (d : ν) : Option (List (String × String)) := do
  let members ← Document.members? d
  let texts ← members.mapM fun m => (Document.text? m.2).map fun t => (m.1, t)
  pure (Text.sortedTable texts)

/-- Reads the settings of logging. -/
def LoggingSettings.read? (d : ν) : Option LoggingSettings := do
  let f ← Document.fields? ["level", "format", "module_levels", "include_location",
    "include_target", "log_span_close", "stderr"] d
  pure
    { level := ← f.withDefault "level" "info" Document.text?
      format := ← f.withDefault "format" .json LogFormat.read?
      moduleLevels := ← f.withDefault "module_levels" [] textsByName?
      includeLocation := ← f.withDefault "include_location" false Document.bool?
      includeTarget := ← f.withDefault "include_target" true Document.bool?
      logSpanClose := ← f.withDefault "log_span_close" false Document.bool?
      stderr := ← f.withDefault "stderr" false Document.bool? }

/-- Reads who logs and what, in an environment with a name. -/
def TelemetrySettings.read? (environment : String) (d : ν) : Option TelemetrySettings := do
  let f ← Document.fields? ["service_name", "environment", "logging"] d
  pure
    { serviceName := ← f.withDefault "service_name" "sharing-core" Document.text?
      environment := ← f.withDefault "environment" environment Document.text?
      logging := ← f.withDefault "logging" {} LoggingSettings.read? }

/-- Reads a number of connections, which has 32 bits. -/
def connections? (d : ν) : Option Nat := (Document.nat? d).filter (· < Nat.pow 2 32)

/-- Reads the settings of the database. -/
def DatabaseSettings.read? (d : ν) : Option DatabaseSettings := do
  let f ← Document.fields? ["url", "max_connections", "min_connections", "acquire_timeout"] d
  pure
    { url := ← f.required "url" Document.text?
      maxConnections := ← f.withDefault "max_connections" 10 connections?
      minConnections := ← f.withDefault "min_connections" 1 connections?
      acquireTimeout := ← f.withDefault "acquire_timeout" 5000000000 fun v =>
        (Document.text? v).bind Duration.read? }

/-- Reads all settings; the environment has its name already. -/
def Configuration.read? (environment : String) (d : ν) : Option Configuration := do
  let f ← Document.fields? ["sharing", "database", "telemetry"] d
  pure
    { engine := ← f.withDefault "sharing" {} EngineSettings.read?
      database := ← f.optional "database" DatabaseSettings.read?
      telemetry := ←
        f.withDefault "telemetry" { environment } (TelemetrySettings.read? environment) }

end RecordAccess
