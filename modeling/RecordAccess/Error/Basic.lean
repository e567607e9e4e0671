import RecordAccess.Json.Basic

/-!
# Errors

An `AccessError` carries a stable `ErrorCode`, a message that is safe to show, a detail that is only
for operators, context and the text of its cause.  The code alone decides the category, the severity
and whether a retry can help.  No error ever stands for a granted access.
-/

namespace RecordAccess

/-! ### Codes -/

/-- The kinds of errors. -/
inductive ErrorCode
  | providerUnavailable
  | providerQueryFailed
  | databaseError
  | databaseConnectionFailed
  | recordNotFound
  | serializationError
  | deserializationError
  | invalidSnapshot
  | configurationError
  | missingConfiguration
  | invalidConfiguration
  | internalError
deriving DecidableEq, Inhabited

/-- How much an error matters to operators. -/
inductive Severity
  /-- A record is missing. -/
  | low
  /-- One query failed. -/
  | medium
  /-- The database or the configuration is at fault. -/
  | high
  /-- The data cannot be reached at all. -/
  | critical
deriving DecidableEq, Inhabited

namespace Severity

/-- The name used in documents. -/
def name : Severity → String
  | .low => "low"
  | .medium => "medium"
  | .high => "high"
  | .critical => "critical"

/-- The name used in counters. -/
def label : Severity → String
  | .low => "Low"
  | .medium => "Medium"
  | .high => "High"
  | .critical => "Critical"

end Severity

namespace ErrorCode

/-- Every code, in the order of their numbers. -/
def all : List ErrorCode :=
  [.providerUnavailable, .providerQueryFailed, .databaseError, .databaseConnectionFailed,
    .recordNotFound, .serializationError, .deserializationError, .invalidSnapshot,
    .configurationError, .missingConfiguration, .invalidConfiguration, .internalError]

/-- The name shown to people and in counters. -/
def label : ErrorCode → String
  | .providerUnavailable => "PortUnavailable"
  | .providerQueryFailed => "PortQueryFailed"
  | .databaseError => "DatabaseError"
  | .databaseConnectionFailed => "DatabaseConnectionFailed"
  | .recordNotFound => "RecordNotFound"
  | .serializationError => "SerializationError"
  | .deserializationError => "DeserializationError"
  | .invalidSnapshot => "InvalidSnapshot"
  | .configurationError => "ConfigurationError"
  | .missingConfiguration => "MissingConfiguration"
  | .invalidConfiguration => "InvalidConfiguration"
  | .internalError => "InternalError"

/-- The name used in documents. -/
def name : ErrorCode → String
  | .providerUnavailable => "PORT_UNAVAILABLE"
  | .providerQueryFailed => "PORT_QUERY_FAILED"
  | .databaseError => "DATABASE_ERROR"
  | .databaseConnectionFailed => "DATABASE_CONNECTION_FAILED"
  | .recordNotFound => "RECORD_NOT_FOUND"
  | .serializationError => "SERIALIZATION_ERROR"
  | .deserializationError => "DESERIALIZATION_ERROR"
  | .invalidSnapshot => "INVALID_SNAPSHOT"
  | .configurationError => "CONFIGURATION_ERROR"
  | .missingConfiguration => "MISSING_CONFIGURATION"
  | .invalidConfiguration => "INVALID_CONFIGURATION"
  | .internalError => "INTERNAL_ERROR"

/-- The stable number. -/
def number : ErrorCode → Nat
  | .providerUnavailable => 2000
  | .providerQueryFailed => 2001
  | .databaseError => 2002
  | .databaseConnectionFailed => 2003
  | .recordNotFound => 2004
  | .serializationError => 2200
  | .deserializationError => 2201
  | .invalidSnapshot => 2202
  | .configurationError => 5000
  | .missingConfiguration => 5001
  | .invalidConfiguration => 5002
  | .internalError => 9000

/-- The group of codes that a number belongs to. -/
def category (c : ErrorCode) : String :=
  if c.number < 2100 then "data_port"
  else if c.number < 2300 then "serialization"
  else if c.number < 5100 then "configuration"
  else "internal"

/-- Whether the same call may succeed later. -/
def isRetryable : ErrorCode → Bool
  | .providerUnavailable => true
  | .databaseConnectionFailed => true
  | .providerQueryFailed => true
  | _ => false

/-- The severity of every error with the code. -/
def severity : ErrorCode → Severity
  | .recordNotFound => .low
  | .providerQueryFailed => .medium
  | .providerUnavailable => .critical
  | .databaseConnectionFailed => .critical
  | .internalError => .critical
  | _ => .high

end ErrorCode

/-! ### Errors -/

/-- An error out of any operation. -/
structure AccessError where
  code : ErrorCode
  /-- The message that is safe to show to clients. -/
  message : String
  /-- What only operators should see. -/
  internal : Option String := none
  /-- Details by name, sorted and without repetitions. -/
  context : List (String × Json) := []
  /-- The text of the cause. -/
  source : Option String := none
deriving Inhabited

namespace AccessError

/-- The error with one more detail; a detail of the same name is replaced. -/
def withContext (e : AccessError) (name : String) (value : Json) : AccessError :=
  { e with context := Text.sortedPut name value e.context }

/-- The error with the text of its cause. -/
def withSource (e : AccessError) (text : String) : AccessError := { e with source := some text }

/-- An error inside the program. -/
def internalError (text : String) : AccessError :=
  { code := .internalError, message := "An internal error occurred", internal := some text }

/-- A data provider that does not answer. -/
def providerUnavailable (provider reason : String) : AccessError :=
  { code := .providerUnavailable
    message := "Sharing data is temporarily unavailable"
    internal := some reason
    context := [("port", .string provider)] }

/-- Settings that contradict each other. -/
def configuration (text : String) : AccessError :=
  { code := .invalidConfiguration, message := "Configuration is invalid", internal := some text }

/-- A JSON text that cannot be read as what it should be. -/
def malformedJson : AccessError :=
  { code := .deserializationError, message := "Failed to process JSON data" }

/-- A YAML text that cannot be read as what it should be. -/
def malformedYaml : AccessError :=
  { code := .deserializationError, message := "Failed to process YAML data" }

/-- Whether the error has to be read as a denied access: always. -/
def isDeny (_ : AccessError) : Bool := true

/-- The text shown to operators. -/
def display (e : AccessError) : String :=
  "[" ++ e.code.label ++ "] " ++ e.message ++
    match e.internal with
    | none => ""
    | some text => " (internal: " ++ text ++ ")"

end AccessError

end RecordAccess
