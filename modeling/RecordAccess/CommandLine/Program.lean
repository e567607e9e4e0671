import RecordAccess.CommandLine.Help
import RecordAccess.CommandLine.Report
import RecordAccess.Configuration.Directive
import RecordAccess.Configuration.Load
import RecordAccess.Configuration.VariableFile
import RecordAccess.Store.Load

/-!
# The program

`Program.run` gives what one call of the program prints and its exit code, as a function of the
arguments, the environment and the files.
-/

namespace RecordAccess.CommandLine

/-- All that a call of the program depends on. -/
structure World where
  arguments : List String
  environment : Environment
  files : FileReader
  /-- Whether the output goes to a terminal. -/
  isTerminal : Bool
  stamps : Stamps

/-- What a call of the program ends in. -/
structure Outcome where
  exit : Nat
  output : String
  errors : String
deriving DecidableEq, Inhabited

namespace Program

/-- The version of the program. -/
def version : String := "0.1.0"

/-- The file of variables that is read first. -/
def variableFile : String := ".env"

/-- The environment with the variables of the file. -/
def environmentOf (w : World) : Environment :=
  match w.files variableFile with
  | .ok text => w.environment.withFile text
  | .error _ => w.environment

/-- The files that a call reads after the file of variables. -/
def filesOf (e : Environment) (arguments : List String) : List String :=
  match Invocation.read e arguments with
  | .error _ => []
  | .ok i => i.config.toList.flatMap Configuration.candidates ++ i.snapshot.toList

/-- The line that tells the version. -/
def versionLine : Option CommandName → String
  | none => "sharing " ++ version ++ "\n"
  | some c => "sharing-" ++ c.text ++ " " ++ version ++ "\n"

/-- The message for wrong arguments. -/
def misuse : String := "error: invalid arguments\n\nFor more information, try '--help'.\n"

/-- What a call without a command ends in. -/
def Stop.outcome (e : Environment) : Stop → Outcome
  | .misuse => ⟨2, "", misuse⟩
  | .version c => ⟨0, versionLine c, ""⟩
  | .help c full => ⟨0, Help.text e c full, ""⟩

/-- Whether a variable of the environment switches something on. -/
def switchedOn? (e : Environment) (name : String) : Option Bool := (e.get? name).map (· ≠ "0")

/-- Whether reports are colored: never if an option says so, always if a variable does, and on a
terminal unless another variable is against it. -/
def isColored (w : World) (e : Environment) (i : Invocation) : Bool :=
  if i.noColor then false
  else if switchedOn? e "CLICOLOR_FORCE" = some true then true
  else if (e.get? "NO_COLOR").isSome then false
  else w.isTerminal && (switchedOn? e "CLICOLOR").getD true

/-- The text of an error and its cause. -/
def errorText (e : AccessError) : String :=
  match e.source with
  | none => e.display
  | some cause => e.display ++ ": " ++ cause

/-- The engine that an invocation asks for: the configuration is loaded first, then the snapshot. -/
def engineFor (w : World) (e : Environment) (i : Invocation) : Except String Engine :=
  match Configuration.load e w.files i.config with
  | .error err => .error (errorText err)
  | .ok configuration =>
    match i.snapshot with
    | none => .error "no snapshot given; pass --snapshot or set SHARING_SNAPSHOT"
    | some path =>
      match Snapshot.load w.stamps w.files path with
      | .error err => .error ("failed to load snapshot " ++ path ++ ": " ++ errorText err)
      | .ok snapshot => .ok ⟨snapshot.toStore.providers, configuration.engine⟩

/-- The report of an invocation. -/
def report (w : World) (e : Environment) (i : Invocation) (s : Screen) : Except String String :=
  match engineFor w e i with
  | .error text => .error text
  | .ok engine =>
    match (i.command.report engine s i.output).outcome with
    | .error err => .error (errorText err)
    | .ok text => .ok text

/-- Whether the log level of an invocation can be used. -/
def levelIsValid (i : Invocation) : Bool :=
  i.logLevel.all fun level => ({ level := level } : LoggingSettings).directivesAreValid

/-- What an invocation ends in. -/
def runInvocation (w : World) (e : Environment) (i : Invocation) : Outcome :=
  if !levelIsValid i then ⟨1, "", "Error: invalid filter directive\n"⟩
  else
    let screen : Screen := ⟨isColored w e i⟩
    match report w e i screen with
    | .ok text => ⟨0, text, ""⟩
    | .error text => ⟨1, "", screen.marked .bad "ERROR" text⟩

/-- What a call of the program ends in. -/
def run (w : World) : Outcome :=
  let e := environmentOf w
  match Invocation.read e w.arguments with
  | .error stop => Stop.outcome e stop
  | .ok i => runInvocation w e i

end Program

end RecordAccess.CommandLine
