import RecordAccess.Error.Basic

/-!
# Causes of errors

What goes wrong below the library: in files and connections (`IoCause`), in the database
(`DatabaseCause`) and in settings (`SettingsCause`).  Each cause has a text of its own and becomes
one `AccessError`; the text is kept for operators.
-/

namespace RecordAccess

/-! ### Files and connections -/

/-- The kinds of input and output failures that are told apart. -/
inductive IoKind
  | notFound
  | connectionRefused
  | connectionReset
  | other
deriving DecidableEq, Inhabited

/-- A failure of input or output. -/
structure IoCause where
  kind : IoKind
  text : String

/-- The error that a failure of input or output becomes. -/
def IoCause.toError (c : IoCause) : AccessError :=
  let code : ErrorCode × String :=
    match c.kind with
    | .notFound => (.recordNotFound, "File or resource not found")
    | .connectionRefused => (.providerUnavailable, "Connection failed")
    | .connectionReset => (.providerUnavailable, "Connection failed")
    | .other => (.internalError, "An I/O error occurred")
  { code := code.1, message := code.2, internal := some c.text, source := some c.text }

/-! ### The database -/

/-- A failure of the database or of the connections to it. -/
inductive DatabaseCause
  | rowNotFound
  | poolTimedOut
  | poolClosed
  | workerCrashed
  /-- The connection failed. -/
  | io (text : String)
  /-- The answer makes no sense. -/
  | protocol (text : String)
  | columnNotFound (name : String)
  | typeNotFound (name : String)
  /-- A value in a row does not have the type its column should have. -/
  | columnDecode (name text : String)
  /-- The address of the database is malformed. -/
  | configuration (text : String)
  /-- The server refused a statement. -/
  | refused (text : String)

namespace DatabaseCause

/-- The text of a failure. -/
def text : DatabaseCause → String
  | .rowNotFound => "no rows returned by a query that expected to return at least one row"
  | .poolTimedOut => "pool timed out while waiting for an open connection"
  | .poolClosed => "attempted to acquire a connection on a closed pool"
  | .workerCrashed => "attempted to communicate with a crashed background worker"
  | .io t => "error communicating with database: " ++ t
  | .protocol t => "encountered unexpected or invalid data: " ++ t
  | .columnNotFound n => "no column found for name: " ++ n
  | .typeNotFound n => "type named " ++ n ++ " not found"
  | .columnDecode n t => "error occurred while decoding column \"" ++ n ++ "\": " ++ t
  | .configuration t => "error with configuration: " ++ t
  | .refused t => "error returned from database: " ++ t

/-- The error that a failure becomes. -/
def toError (c : DatabaseCause) : AccessError :=
  let code : ErrorCode × String :=
    match c with
    | .rowNotFound => (.recordNotFound, "The requested record was not found")
    | .poolTimedOut | .poolClosed | .io _ =>
      (.databaseConnectionFailed, "Unable to connect to the database")
    | .refused _ => (.providerQueryFailed, "Failed to read sharing data")
    | _ => (.databaseError, "A database error occurred")
  { code := code.1, message := code.2, internal := some c.text, source := some c.text }

end DatabaseCause

/-! ### Settings -/

/-- A failure to read settings. -/
inductive SettingsCause
  /-- A setting that has to be there is missing. -/
  | notFound (name : String)
  /-- Settings can no longer be changed. -/
  | frozen
  /-- The file of settings cannot be read as what its name says. -/
  | unreadable (text : String)
  /-- Anything else, with its text. -/
  | other (text : String)

namespace SettingsCause

/-- The text of a failure. -/
def text : SettingsCause → String
  | .notFound n => "configuration property \"" ++ n ++ "\" not found"
  | .frozen => "configuration is frozen"
  | .unreadable t => t
  | .other t => t

/-- The error that a failure becomes. -/
def toError (c : SettingsCause) : AccessError :=
  let code : ErrorCode × String :=
    match c with
    | .notFound _ => (.missingConfiguration, "Required configuration not found")
    | .unreadable _ => (.invalidConfiguration, "Configuration file is invalid")
    | _ => (.configurationError, "Configuration error occurred")
  { code := code.1, message := code.2, internal := some c.text }

end SettingsCause

end RecordAccess
