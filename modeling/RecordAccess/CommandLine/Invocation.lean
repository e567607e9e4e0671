import RecordAccess.CommandLine.Argument
import RecordAccess.Configuration.Source
import RecordAccess.Engine.Decide
import RecordAccess.Filter.Sql

/-!
# Invocations

An `Invocation` is what the arguments and the environment ask for.  The value of an option is looked
for after the command, before it, in the environment and in the defaults, in this order.
-/

namespace RecordAccess.CommandLine

/-- A command with all it needs. -/
inductive Command
  | check (user : UserId) (record : Record) (access : AccessType)
  | filter (user : UserId) (tenant : TenantId) (collection : CollectionId) (access : AccessType)
      (columns : FilterColumns) (firstPlaceholder : Nat)
  | groups (user : UserId)
  | members (group : GroupId)

/-- What a call of the program asks for. -/
structure Invocation where
  output : Format
  snapshot : Option String
  config : Option String
  logLevel : Option String
  noColor : Bool
  command : Command

namespace Arguments

/-- The value of an option that was given, in arguments or in the environment. -/
def given? (a : Arguments) (e : Environment) (o : OptionSpec) : Option String :=
  (a.after.given.lookup o.long).or ((a.before.given.lookup o.long).or (o.fallback.bind e.get?))

/-- The value of an option by its long name. -/
def value? (a : Arguments) (e : Environment) (long : String) : Option String := do
  let o ← (a.command.options ++ globalOptions).find? fun o => o.long = long
  (a.given? e o).or (o.value.bind (·.default))

/-- Whether a variable of the environment has a value that its option takes.  On each side of the
command a variable counts if the option is not given there. -/
def variablesAreValid (e : Environment) (s : Side) : Bool :=
  globalOptions.all fun o =>
    (s.given.lookup o.long).isSome || ((o.fallback.bind e.get?).all o.accepts)

/-- Whether every option and every argument that has to be given is given. -/
def isComplete (a : Arguments) : Bool :=
  (a.command.options.all fun o =>
    !(o.value.any (·.required)) || (a.after.given.lookup o.long).isSome) &&
    a.words.length = a.command.positional?.toList.length

/-- The command that is asked for. -/
def command? (a : Arguments) (e : Environment) : Option Command :=
  let value? := a.value? e
  match a.command with
  | .check => do
    let access ← AccessType.all.find? fun t => some t.label = value? "access"
    pure (.check ⟨← value? "user"⟩ ⟨⟨← value? "tenant"⟩, ⟨← value? "collection"⟩,
      ⟨← value? "record"⟩, (value? "owner").map Id.mk⟩ access)
  | .filter => do
    let access ← AccessType.all.find? fun t => some t.label = value? "access"
    pure (.filter ⟨← value? "user"⟩ ⟨← value? "tenant"⟩ ⟨← value? "collection"⟩ access
      ⟨← value? "id-column", ← value? "owner-column"⟩
      (← (value? "first-placeholder").bind (Decimal.bounded? (Nat.pow 2 64 - 1))))
  | .groups => a.words.head?.map fun w => .groups ⟨w⟩
  | .members => a.words.head?.map fun w => .members ⟨w⟩

/-- What the arguments and the environment ask for. -/
def invocation (a : Arguments) (e : Environment) : Except Stop Invocation :=
  if variablesAreValid e a.after && a.isComplete && variablesAreValid e a.before then
    match a.command? e, (a.value? e "output").bind Format.ofName? with
    | some command, some output => .ok
      { output, command
        snapshot := a.value? e "snapshot"
        config := a.value? e "config"
        logLevel := a.value? e "log-level"
        noColor := (a.value? e "no-color").isSome }
    | _, _ => .error .misuse
  else .error .misuse

end Arguments

/-- Reads arguments in an environment. -/
def Invocation.read (e : Environment) (arguments : List String) : Except Stop Invocation := do
  let a ← Arguments.read arguments
  a.invocation e

end RecordAccess.CommandLine
