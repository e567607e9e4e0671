import RecordAccess.Document.Yaml
import RecordAccess.File
import RecordAccess.Json.TextForm
import RecordAccess.Store.Snapshot

/-!
# Loading snapshots

A snapshot is read from JSON or YAML text; in a file, the ending of the name says which.
-/

namespace RecordAccess.Snapshot

/-- Reads JSON text. -/
def ofJson [Document Json] [Json.TextForm] [Timestamp.TextForm] (stamps : Stamps) (text : String) :
    Except AccessError Snapshot :=
  match (Json.TextForm.read? text).bind (read? stamps) with
  | some s => .ok s
  | none => .error .malformedJson

/-- Reads YAML text. -/
def ofYaml (stamps : Stamps) (text : String) : Except AccessError Snapshot :=
  match (Yaml.Node.read? text).bind (read? stamps) with
  | some s => .ok s
  | none => .error .malformedYaml

/-- Reads a text in the format that the ending of a file name says. -/
def ofNamed (stamps : Stamps) (path text : String) : Except AccessError Snapshot :=
  match fileExtension? path with
  | some "json" => ofJson stamps text
  | some "yaml" => ofYaml stamps text
  | some "yml" => ofYaml stamps text
  | ending => .error
      { code := .invalidSnapshot
        message := "Unsupported snapshot format: " ++ ending.getD "<none>" }

/-- Reads a file.  A file that cannot be read is reported before its name is looked at. -/
def load (stamps : Stamps) (files : FileReader) (path : String) : Except AccessError Snapshot :=
  match files path with
  | .ok text => ofNamed stamps path text
  | .error problem =>
    .error { code := .invalidSnapshot, message := problem.text, source := some problem.text }

end RecordAccess.Snapshot
