import RecordAccess.CommandLine.Program
import RecordAccess.RandomId

/-!
# The command `sharing`

Collects the arguments, the environment and the files that a call names, and prints what the call
ends in.
-/

namespace RecordAccess.Main

open CommandLine

/-- The file in which the system lists the environment. -/
def environmentFile : String := "/proc/self/environ"

/-- Reads a file. -/
def readText (path : String) : IO (Except FileProblem String) := do
  try
    pure (textOfBytes (← IO.FS.readBinFile path))
  catch
    | .noFileOrDirectory .. => pure (.error .missing)
    | .inappropriateType .. => pure (.error .directory)
    | problem => pure (.error (.other (toString problem)))

/-- The variables that a list with zeros between them sets. -/
def variablesOf (text : String) : Environment :=
  (text.splitOn "\x00").filterMap fun entry =>
    match entry.splitOn "=" with
    | name :: value :: more => some (name, String.intercalate "=" (value :: more))
    | _ => none

/-- The environment of the process. -/
def readEnvironment : IO Environment := do
  match ← readText environmentFile with
  | .ok text => pure (variablesOf text)
  | .error _ => pure []

/-- Reads files, each with its name. -/
def readFiles (paths : List String) : IO (List (String × Except FileProblem String)) :=
  paths.mapM fun path => do pure (path, ← readText path)

/-- The ids for rules and shares that have none. -/
def randomStamps : IO Stamps := do
  let bytes ← IO.getRandomBytes 16
  let seed := bytes.toList.foldl (fun n b => 256 * n + b.toNat) 0
  let stamp (place : Nat) : Stamp := ⟨RandomId.ofNumber (RandomId.spread seed place), .last⟩
  pure ⟨fun i => stamp (2 * i), fun i => stamp (2 * i + 1)⟩

end RecordAccess.Main

open RecordAccess RecordAccess.CommandLine RecordAccess.Main in
/-- Runs one call of the program. -/
def main (arguments : List String) : IO UInt32 := do
  let environment ← readEnvironment
  let first ← readFiles [Program.variableFile]
  let lookup (files : List (String × Except FileProblem String)) : FileReader := fun path =>
    (files.lookup path).getD (.error .missing)
  let world (files : List (String × Except FileProblem String)) (stamps : Stamps)
      (isTerminal : Bool) : World :=
    { arguments, environment, files := lookup files, isTerminal, stamps }
  let stamps ← randomStamps
  let isTerminal ← (← IO.getStdout).isTty
  let e := Program.environmentOf (world first stamps isTerminal)
  let files ← readFiles (Program.filesOf e arguments)
  let outcome := Program.run (world (first ++ files) stamps isTerminal)
  IO.print outcome.output
  IO.eprint outcome.errors
  pure outcome.exit.toUInt32
