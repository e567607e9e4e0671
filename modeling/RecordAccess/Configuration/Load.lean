import RecordAccess.Configuration.Codec
import RecordAccess.Configuration.Source
import RecordAccess.Error.Cause
import RecordAccess.File

/-!
# Loading a configuration

A configuration comes from a file, if one is named, and from the environment, whose variables
override the file.  `Configuration.load` gives only configurations that can work.
-/

namespace RecordAccess.Configuration

/-- The formats of files with settings. -/
inductive Format
  | json
  | yaml
deriving DecidableEq

/-- The format that the ending of a file name says. -/
def Format.ofEnding? (ending : String) : Option Format :=
  if ending = "json" then some .json
  else if ending = "yaml" ∨ ending = "yml" then some .yaml
  else none

/-- The endings that are tried when a file name has no file. -/
def endings : List String := ["json", "yaml", "yml"]

/-- The files that may be meant by a name. -/
def candidates (name : String) : List String :=
  name :: endings.map fun ending => name ++ "." ++ ending

/-- A file with settings, and what it holds. -/
structure Source where
  format : Format
  text : String

/-- The cause of not finding a file. -/
def missingFile (name : String) : SettingsCause :=
  .other ("configuration file \"" ++ name ++ "\" not found")

/-- Finds the file with a name, or with that name and an ending. -/
def find (files : FileReader) (name : String) : Except SettingsCause Source :=
  match files name with
  | .ok text =>
    match (fileExtension? name).bind Format.ofEnding? with
    | some format => .ok ⟨format, text⟩
    | none =>
      .error (.other ("configuration file \"" ++ name ++ "\" is not of a registered file format"))
  | .error .notText => .error (.other FileProblem.notText.text)
  | .error _ =>
    let found := endings.findSome? fun ending =>
      match files (name ++ "." ++ ending), Format.ofEnding? ending with
      | .ok text, some format => some (Source.mk format text)
      | _, _ => none
    match found with
    | some source => .ok source
    | none => .error (missingFile name)

/-- The text without a mark of byte order in front. -/
def withoutMark (text : String) : String :=
  match text.toList with
  | c :: rest => if c = '\ufeff' then String.ofList rest else text
  | [] => text

/-- The layer of settings in a file. -/
def Source.layer (s : Source) : Except SettingsCause (List (String × Setting)) :=
  let layer := match s.format with
    | .json => Setting.layerOfJson? (withoutMark s.text)
    | .yaml => Setting.layerOfYaml? (withoutMark s.text)
  match layer with
  | some ms => .ok ms
  | none => .error (.unreadable "the file cannot be read as its name says")

/-- The layers of settings, the overriding ones last. -/
def layers (environment : Environment) (files : FileReader) (name : Option String) :
    Except SettingsCause (List (List (String × Setting))) := do
  let fromEnvironment := Setting.layerOfEnvironment environment
  match name with
  | none => pure [fromEnvironment]
  | some name =>
    let source ← find files name
    let layer ← source.layer
    pure [layer, fromEnvironment]

/-- The variable that names the environment itself. -/
def environmentVariable : String := "SHARING_ENVIRONMENT"

/-- The name of an environment. -/
def environmentName (environment : Environment) : String :=
  (environment.get? environmentVariable).getD "development"

/-- The configuration in an environment that sets nothing else. -/
def standard (environment : Environment) : Configuration :=
  { telemetry := { environment := environmentName environment } }

/-- Reads a configuration from the environment and from a file, if one is named. -/
def read (environment : Environment) (files : FileReader) (name : Option String) :
    Except SettingsCause Configuration := do
  let layers ← layers environment files name
  let settings := layers.foldl (fun s layer => Setting.overlay layer s) (.table [])
  match read? (environmentName environment) settings with
  | some c => pure c
  | none => .error (.other "a setting does not have the type it should have")

/-- Loads a configuration that can work. -/
def load (environment : Environment) (files : FileReader) (name : Option String) :
    Except AccessError Configuration :=
  match read environment files name with
  | .ok c => c.validate
  | .error cause => .error cause.toError

end RecordAccess.Configuration
