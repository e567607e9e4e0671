import RecordAccess.Json.Reader

/-!
# JSON values with and without a type

Two ways to read a value that is already there.

* `Json.untyped?` reads a value that may be anything: it is taken in canonical form.  One name is
  reserved.  An object that begins with it holds a document as a text and stands for that document,
  so its only member has to be a text that can be read.
* `Json.kindAndBody?` reads a value of one of several kinds: an object in which one member names the
  kind, or the array of the kind and of what belongs to it.
-/

namespace RecordAccess.Json

open Text (sortedPut)

/-! ### Without a type -/

/-- The name of a member that holds a document as a text. -/
def reservedName : String := "$serde_json::private::RawValue"

/-- The document that a value holds as a text, if nothing stands after it. -/
def document? (reread : String → Option Json) (value : Json) (after : List (String × Json)) :
    Option Json :=
  match value, after with
  | .string text, [] => reread text
  | _, _ => none

mutual

/-- The value in canonical form, with the documents that texts in it hold in their places. -/
def settle (reread : String → Option Json) : Json → Option Json
  | .array items => (settleItems reread items).map .array
  | .object [] => some (.object [])
  | .object ((name, value) :: members) =>
    if name = reservedName then document? reread value members
    else do
      let value ← settle reread value
      (settleMembers reread members (sortedPut name value [])).map .object
  | value => some value

/-- The items of an array, each by itself. -/
def settleItems (reread : String → Option Json) : List Json → Option (List Json)
  | [] => some []
  | item :: items => do
    let item ← settle reread item
    let items ← settleItems reread items
    pure (item :: items)

/-- Puts the further members of an object into the sorted list `acc`. -/
def settleMembers (reread : String → Option Json) :
    List (String × Json) → List (String × Json) → Option (List (String × Json))
  | [], acc => some acc
  | (name, value) :: members, acc => do
    let value ← settle reread value
    settleMembers reread members (sortedPut name value acc)

end

/-- Reads a document that a text holds. -/
def held? (text : String) : Option Json :=
  -- a text inside a document is shorter than the document
  (read? text).bind (settle fun inner =>
    if inner.length < text.length then held? inner else none)
termination_by text.length

/-- Reads a value that may be anything. -/
def untyped? (j : Json) : Option Json := settle held? j

/-! ### Of a kind -/

/-- The kind that a value names; where it stands among the members of another record, also by its
place. -/
def kind? (byPlace : Bool) (kinds : List String) : Json → Option String
  | .string t => if kinds.contains t then some t else none
  | .number (.integer (.ofNat i)) => if byPlace then kinds[i]? else none
  | _ => none

/-- Reads a kind, in the member with the name `tag`, and what belongs to it. -/
def kindAndBody? (byPlace : Bool) (tag : String) (kinds : List String) :
    Json → Option (String × Json)
  | .object members =>
    match members.filter fun m => m.1 = tag with
    | [(_, t)] =>
      (kind? byPlace kinds t).map fun kind => (kind, .object (members.filter fun m => m.1 ≠ tag))
    | _ => none
  | .array (t :: values) => (kind? false kinds t).map fun kind => (kind, .array values)
  | _ => none

end RecordAccess.Json
