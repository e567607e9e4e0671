import RecordAccess.Document

/-!
# JSON as a document

A record may be written as an object or as the array of its values in order; trailing values may be
missing, further ones may not follow.  A choice is a string, or an object whose one member has the
chosen name and the value null.
-/

namespace RecordAccess.Json

/-- Which of the given names a value chooses. -/
def choice? (names : List String) : Json → Option String
  | .string t => if names.contains t then some t else none
  | .object [(t, .null)] => if names.contains t then some t else none
  | _ => none

/-- The members with the given names of a record. -/
def fields? (names : List String) : Json → Option (Fields Json)
  | .object members => Fields.ofMembers? names members
  | .array values =>
    if values.length ≤ names.length then some (Fields.ofPositions names values) else none
  | _ => none

instance : Document Json where
  isNull
    | .null => true
    | _ => false
  text? := text?
  bool? := bool?
  nat? := nat?
  choice? := choice?
  items? := items?
  members? := members?
  fields? := fields?
  content? := some

end RecordAccess.Json
