import RecordAccess.Access
import RecordAccess.Decimal.Digits

/-!
# Options of the command line

The commands and what each of them takes, as data: reading arguments and writing help both follow
these lists.  Global options may stand before and after the name of the command.
-/

namespace RecordAccess.CommandLine

/-- One of the values that may be chosen. -/
structure Choice where
  name : String
  help : Option String := none

/-- What the value of an option has to be. -/
inductive ValueKind
  | text
  /-- The name of a file, which is not empty. -/
  | path
  /-- A natural number of 64 bits. -/
  | number
  | choice (choices : List Choice)

/-- Whether a text is such a value. -/
def ValueKind.accepts : ValueKind → String → Bool
  | .text, _ => true
  | .path, t => t ≠ ""
  | .number, t => (Decimal.bounded? (Nat.pow 2 64 - 1) t).isSome
  | .choice cs, t => cs.any fun c => c.name = t

/-- The value of an option. -/
structure ValueSpec where
  /-- What the value is called in help. -/
  name : String
  kind : ValueKind := .text
  default : Option String := none
  required : Bool := false

/-- An option with a value, or a switch without one. -/
structure OptionSpec where
  long : String
  short : Option Char := none
  help : String
  value : Option ValueSpec := none
  /-- The variable of the environment that gives the value if no argument does. -/
  fallback : Option String := none

/-- Whether a text may be the value of an option. -/
def OptionSpec.accepts (o : OptionSpec) (t : String) : Bool := o.value.all fun v => v.kind.accepts t

/-- An argument that is known by its place. -/
structure PositionalSpec where
  name : String
  help : String

/-! ### Global options -/

/-- The forms of output. -/
inductive Format
  | table
  | json
  | yaml
deriving DecidableEq, Inhabited

/-- The name of a form of output. -/
def Format.name : Format → String
  | .table => "table"
  | .json => "json"
  | .yaml => "yaml"

/-- The form of output with a name. -/
def Format.ofName? (t : String) : Option Format :=
  [Format.table, .json, .yaml].find? fun f => f.name = t

/-- The variable that names the snapshot. -/
def snapshotVariable : String := "SHARING_SNAPSHOT"

/-- The variable that names the configuration. -/
def configVariable : String := "SHARING_CONFIG"

/-- The options of every command. -/
def globalOptions : List OptionSpec :=
  [{ long := "output", short := some 'o', help := "Output format"
     value := some
      { name := "OUTPUT", default := some "table"
        kind := .choice [⟨"table", some "Render as a formatted table"⟩,
          ⟨"json", some "Render as JSON"⟩, ⟨"yaml", some "Render as YAML"⟩] } },
    { long := "snapshot", short := some 's', help := "Access snapshot (YAML or JSON)"
      value := some { name := "SNAPSHOT", kind := .path }, fallback := some snapshotVariable },
    { long := "config", short := some 'c'
      help := "Engine configuration file; SHARING__* variables override it"
      value := some { name := "CONFIG" }, fallback := some configVariable },
    { long := "log-level", help := "Log level for engine diagnostics on stderr (e.g. debug)"
      value := some { name := "LOG_LEVEL" } },
    { long := "no-color", help := "Disable colored output" }]

/-! ### Commands -/

/-- The commands. -/
inductive CommandName
  | check
  | filter
  | groups
  | members
deriving DecidableEq, Inhabited

namespace CommandName

/-- Every command, in the order of help. -/
def all : List CommandName := [.check, .filter, .groups, .members]

/-- The name of a command. -/
def text : CommandName → String
  | .check => "check"
  | .filter => "filter"
  | .groups => "groups"
  | .members => "members"

/-- The command with a name. -/
def ofText? (t : String) : Option CommandName := all.find? fun c => c.text = t

/-- What a command does. -/
def about : CommandName → String
  | .check => "Decide whether a user may access one record"
  | .filter => "Compile the list filter for a user and collection"
  | .groups => "Show a user's effective groups"
  | .members => "Show a group's effective users"

/-- The option that names the kind of access. -/
def accessOption : OptionSpec :=
  { long := "access", short := some 'a', help := "Access type"
    value := some
      { name := "ACCESS", default := some "read"
        kind := .choice (AccessType.all.map fun a => ⟨a.label, none⟩) } }

/-- An option with a value that has to be given. -/
def requiredOption (long : String) (short : Char) (valueName help : String) : OptionSpec :=
  { long, short := some short, help, value := some { name := valueName, required := true } }

/-- The options of a command. -/
def options : CommandName → List OptionSpec
  | .check =>
    [requiredOption "user" 'u' "USER" "User requesting access",
      requiredOption "tenant" 't' "TENANT" "Tenant the record belongs to",
      requiredOption "collection" 'C' "COLLECTION" "Collection the record belongs to",
      requiredOption "record" 'r' "RECORD" "Record ID",
      { long := "owner", help := "Record owner, if any", value := some { name := "OWNER" } },
      accessOption]
  | .filter =>
    [requiredOption "user" 'u' "USER" "User listing records",
      requiredOption "tenant" 't' "TENANT" "Tenant being listed",
      requiredOption "collection" 'C' "COLLECTION" "Collection being listed",
      accessOption,
      { long := "id-column", help := "Physical record id column"
        value := some { name := "ID_COLUMN", default := some "id" } },
      { long := "owner-column", help := "Physical owner column"
        value := some { name := "OWNER_COLUMN", default := some "owner_id" } },
      { long := "first-placeholder", help := "First SQL placeholder number"
        value := some { name := "FIRST_PLACEHOLDER", kind := .number, default := some "1" } }]
  | .groups => []
  | .members => []

/-- The argument of a command that is known by its place. -/
def positional? : CommandName → Option PositionalSpec
  | .groups => some ⟨"USER", "User whose groups to resolve"⟩
  | .members => some ⟨"GROUP", "Group whose users to resolve"⟩
  | _ => none

end CommandName

end RecordAccess.CommandLine
