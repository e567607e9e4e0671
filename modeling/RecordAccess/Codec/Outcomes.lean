import RecordAccess.Codec.Models
import RecordAccess.Decision
import RecordAccess.Error.Basic

/-!
# Decisions and errors in documents

Decisions are written only; the parts of an error are also read.
-/

namespace RecordAccess

variable {ν : Type} [Document ν]

/-! ### Decisions -/

/-- Writes a source. -/
def GrantSource.toJson (s : GrantSource) : Json :=
  .object (("source", .string s.label) :: memberIfSome "id" .string s.detail?)

/-- Writes a decision. -/
def Decision.toJson : Decision → Json
  | .granted source => .object [("decision", .string "granted"), ("reason", source.toJson)]
  | .denied reason => .object [("decision", .string "denied"), ("reason", .string reason.label)]

/-! ### Errors -/

/-- Reads an error code. -/
def ErrorCode.read? (d : ν) : Option ErrorCode := chosen? ErrorCode.all ErrorCode.name d

/-- Writes an error code. -/
def ErrorCode.toJson (c : ErrorCode) : Json := .string c.name

/-- Reads a severity. -/
def Severity.read? (d : ν) : Option Severity :=
  chosen? [.low, .medium, .high, .critical] Severity.name d

/-- Writes a severity. -/
def Severity.toJson (s : Severity) : Json := .string s.name

/-- The details of an error. -/
structure ErrorDetails where
  /-- Values by name, sorted and without repetitions. -/
  context : List (String × Json) := []

namespace ErrorDetails

/-- Reads values by name; of repeated names the last counts. -/
def readContext? (d : ν) : Option (List (String × Json)) := do
  let members ← Document.members? d
  let values ← members.mapM fun m => (Document.untyped? m.2).map fun c => (m.1, c)
  pure (Text.sortedTable values)

/-- Reads details. -/
def read? (d : ν) : Option ErrorDetails := do
  let f ← Document.fields? ["context"] d
  pure ⟨← f.withDefault "context" [] readContext?⟩

/-- Writes details. -/
def toJson (e : ErrorDetails) : Json :=
  .object (if e.context.isEmpty then [] else [("context", .object e.context)])

end ErrorDetails

/-- The details of an error. -/
def AccessError.details (e : AccessError) : ErrorDetails := ⟨e.context⟩

end RecordAccess
