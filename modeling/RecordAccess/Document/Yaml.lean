import RecordAccess.Document
import RecordAccess.Yaml.Node
import RecordAccess.Yaml.Scalar

/-!
# YAML as a document

Any scalar is a text, so a number may stand where text is wanted.  Records are mappings; a value
that is left out is a record without members and a list without items.
-/

namespace RecordAccess.Yaml.Node

/-- The text of a scalar. -/
def text? : Node → Option String
  | .scalar _ t => some t
  | _ => none

/-- The text of a scalar without quotes. -/
def plainText? : Node → Option String
  | .scalar true t => some t
  | _ => none

/-- The items of a sequence. -/
def items? : Node → Option (List Node)
  | .sequence xs => some xs
  | .scalar true t => if t = "" then some [] else none
  | _ => none

/-- The members of a mapping whose keys are scalars. -/
def members? : Node → Option (List (String × Node))
  | .mapping ms => ms.mapM fun m => m.1.text?.map fun k => (k, m.2)
  | .scalar true t => if t = "" then some [] else none
  | _ => none

mutual

/-- The value with types.  The keys of a mapping have to be texts. -/
def content? : Node → Option Json
  | .scalar true t => plainValue? t
  | .scalar false t => some (.string t)
  | .sequence xs => (contents? xs).map .array
  | .mapping ms => (contentMembers? ms).map .object

/-- The values of a list. -/
def contents? : List Node → Option (List Json)
  | [] => some []
  | x :: xs => do
    let j ← content? x
    let js ← contents? xs
    pure (j :: js)

/-- The values of members. -/
def contentMembers? : List (Node × Node) → Option (List (String × Json))
  | [] => some []
  | (k, v) :: ms => do
    let key ← content? k
    let name ← key.text?
    let j ← content? v
    let js ← contentMembers? ms
    pure ((name, j) :: js)

end

/-- The natural number below `2^64` that a plain scalar stands for. -/
def nat? (n : Node) : Option Nat :=
  match (n.plainText?.bind plainValue?) with
  | some j => j.nat?
  | none => none

instance : Document Node where
  isNull n := n.plainText?.any isNullText
  text? := text?
  bool? n := n.plainText?.bind boolOf?
  nat? := nat?
  choice? names n := n.text?.filter names.contains
  items? := items?
  members? := members?
  fields? names n := n.members?.bind (Fields.ofMembers? names)
  content? := content?

end RecordAccess.Yaml.Node
