import RecordAccess.Access
import RecordAccess.Error.Basic
import RecordAccess.Query

/-!
# Events

What an operation leaves behind besides its result: counters that it increments (`Counter`), lines
that it logs (`Notice`) and questions that it asks the data providers.
-/

namespace RecordAccess

/-! ### Counters -/

/-- One increment of a counter. -/
inductive Counter
  /-- A decision, under its label, for an access type. -/
  | accessDecision (outcome : String) (access : AccessType)
  /-- A compiled filter, under its kind. -/
  | filterBuilt (kind : String)
  /-- A walk over the group graph, `up` or `down`. -/
  | groupResolution (direction : String)
  /-- A walk over the group graph that was stopped by its depth. -/
  | depthTruncation
  /-- An error that was made. -/
  | errorRaised (code : ErrorCode)
deriving DecidableEq

namespace Counter

/-- The name of a counter. -/
def name : Counter → String
  | .accessDecision .. => "sharing_access_decisions_total"
  | .filterBuilt .. => "sharing_filters_built_total"
  | .groupResolution .. => "sharing_group_resolutions_total"
  | .depthTruncation => "sharing_group_depth_truncations_total"
  | .errorRaised .. => "sharing_errors_total"

/-- The labels of an increment, sorted by name. -/
def labels : Counter → List (String × String)
  | .accessDecision outcome access => [("access", access.label), ("outcome", outcome)]
  | .filterBuilt kind => [("kind", kind)]
  | .groupResolution direction => [("direction", direction)]
  | .depthTruncation => []
  | .errorRaised code =>
    [("category", code.category), ("code", code.label), ("severity", code.severity.label)]

/-- The counter with its labels, as one text. -/
def display (c : Counter) : String :=
  c.name ++ "\x7b" ++ ",".intercalate (c.labels.map fun l => l.1 ++ "=" ++ l.2) ++ "\x7d"

/-- Every counter with what it counts. -/
def descriptions : List (String × String) :=
  [("sharing_access_decisions_total", "Record access decisions by grant source or deny reason"),
    ("sharing_filters_built_total", "Sharing filters compiled for list queries, by outcome"),
    ("sharing_group_resolutions_total", "Group closure resolutions, by direction"),
    ("sharing_group_depth_truncations_total",
      "Upward group resolutions stopped by the depth bound"),
    ("sharing_errors_total", "Errors raised by the sharing engine")]

end Counter

/-! ### Notices -/

/-- How serious a logged line is. -/
inductive LogLevel
  | debug
  | warn
  | error
deriving DecidableEq, Inhabited

/-- The name of a level. -/
def LogLevel.name : LogLevel → String
  | .debug => "DEBUG"
  | .warn => "WARN"
  | .error => "ERROR"

/-- A line for operators. -/
inductive Notice
  /-- Groups above a user were left unexpanded because they are too far up. -/
  | depthReached (user : UserId) (maxDepth unexpanded : Nat)
  /-- A stored rule has no source although its type asks for one. -/
  | ruleWithoutSource (rule : String)
  /-- A stored rule has a type that does not exist. -/
  | ruleOfUnknownType (rule type : String)
  /-- A stored rule has a target or a level that does not exist. -/
  | ruleWithoutTarget (rule : String)
  /-- A stored share has a subject that does not exist. -/
  | shareOfUnknownSubject (share type : String)
  /-- A stored share has a level that does not exist. -/
  | shareWithoutLevel (share : String)
  /-- An error was reported. -/
  | failure (e : AccessError)

namespace Notice

/-- The level of a line. -/
def level : Notice → LogLevel
  | .failure e =>
    match e.code.severity with
    | .critical => .error
    | .high => .error
    | .medium => .warn
    | .low => .debug
  | _ => .warn

/-- The message of a line. -/
def message : Notice → String
  | .depthReached .. => "Maximum group nesting depth reached"
  | .ruleWithoutSource .. => "Owner-based rule without a valid source"
  | .ruleOfUnknownType .. => "Skipping rule of unknown type"
  | .ruleWithoutTarget .. => "Skipping rule with invalid target or access level"
  | .shareOfUnknownSubject .. => "Skipping share of unknown subject type"
  | .shareWithoutLevel .. => "Skipping share with invalid access level"
  | .failure e =>
    match e.code.severity with
    | .critical => "CRITICAL ERROR"
    | .high => "High severity error"
    | .medium => "Medium severity error"
    | .low => "Low severity error"

/-- The fields of a line. -/
def fields : Notice → List (String × Json)
  | .depthReached user maxDepth unexpanded =>
    [("user_id", .string user.text), ("max_depth", .nat maxDepth), ("unexpanded", .nat unexpanded)]
  | .ruleWithoutSource rule => [("rule_id", .string rule)]
  | .ruleOfUnknownType rule type => [("rule_id", .string rule), ("rule_type", .string type)]
  | .ruleWithoutTarget rule => [("rule_id", .string rule)]
  | .shareOfUnknownSubject share type =>
    [("share_id", .string share), ("shared_with_type", .string type)]
  | .shareWithoutLevel share => [("share_id", .string share)]
  | .failure e =>
    [("error_code", .string e.code.label), ("category", .string e.code.category),
      ("user_message", .string e.message)]

/-- The line as a document. -/
def toJson (n : Notice) : Json :=
  .object (("level", .string n.level.name) :: ("message", .string n.message) :: n.fields)

end Notice

/-! ### Events -/

/-- What an operation leaves behind besides its result. -/
inductive Event
  | counted (counter : Counter)
  | logged (notice : Notice)
  | asked (call : Query)

namespace Event

/-- The counter that an event increments. -/
def counter? : Event → Option Counter
  | .counted c => some c
  | _ => none

/-- The line that an event logs. -/
def notice? : Event → Option Notice
  | .logged n => some n
  | _ => none

/-- The question that an event asks. -/
def query? : Event → Option Query
  | .asked c => some c
  | _ => none

end Event

/-- How often each counter was incremented, in the order of first increments. -/
def tally (events : List Event) : List (Counter × Nat) :=
  let counters := events.filterMap Event.counter?
  counters.eraseDups.map fun c => (c, counters.count c)

end RecordAccess
