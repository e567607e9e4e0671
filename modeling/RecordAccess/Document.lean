import RecordAccess.Json.Content

/-!
# Documents

A `Document` is anything that models can be read from.  Formats differ in what counts as a text, a
choice or a record; models are read through this view alone, so each is read by one function from
every format.

`Fields` are the members of a record that a model asks for, by name.  A record never has a member
that is asked for twice; members that are not asked for are ignored.
-/

namespace RecordAccess

/-- The members of a record, by name. -/
abbrev Fields (ν : Type) := String → Option ν

namespace Fields

variable {ν α : Type}

/-- The members with the given names, if none of them is there twice. -/
def ofMembers? (names : List String) (members : List (String × ν)) : Option (Fields ν) :=
  if names.all fun n => (members.filter fun m => m.1 = n).length ≤ 1 then
    some fun n => members.lookup n
  else none

/-- The members of a record that is written as the list of its values. -/
def ofPositions (names : List String) (values : List ν) : Fields ν :=
  fun n => (names.zip values).lookup n

/-- A member that has to be there. -/
def required (f : Fields ν) (name : String) (read : ν → Option α) : Option α :=
  match f name with
  | none => none
  | some v => read v

/-- A member that has a value when it is not there. -/
def withDefault (f : Fields ν) (name : String) (default : α) (read : ν → Option α) : Option α :=
  match f name with
  | none => some default
  | some v => read v

/-- Whether, of two members, the second comes first. -/
def comesLater (first second : String) (members : List (String × ν)) : Bool :=
  (members.map (·.1)).find? (fun n => n = first || n = second) = some second

end Fields

/-- A format that models can be read from.  What values mean together follows from what they mean
one by one, unless a format says otherwise. -/
class Document (ν : Type) where
  /-- Whether the value stands for nothing. -/
  isNull : ν → Bool
  /-- The text that the value is. -/
  text? : ν → Option String
  /-- The truth value that the value is. -/
  bool? : ν → Option Bool
  /-- The natural number below `2^64` that the value is. -/
  nat? : ν → Option Nat
  /-- Which of the given names the value chooses. -/
  choice? : List String → ν → Option String
  /-- The items that the value lists. -/
  items? : ν → Option (List ν)
  /-- The members of the value, in order. -/
  members? : ν → Option (List (String × ν))
  /-- The members with the given names of the record that the value is. -/
  fields? : List String → ν → Option (Fields ν)
  /-- The value as plain JSON. -/
  content? : ν → Option Json
  /-- The value of a member that may hold anything. -/
  untyped? : ν → Option Json := fun d => (content? d).bind Json.untyped?
  /-- The members with the given names of the record that the value is, and the others as plain
  JSON. -/
  split? : List String → ν → Option (Fields ν × List (String × Json)) := fun names d => do
    let members ← members? d
    let f ← Fields.ofMembers? names members
    let others ← (members.filter fun m => !names.contains m.1).mapM fun m =>
      (content? m.2).map fun c => (m.1, c)
    pure (f, others)
  /-- A record of a kind and a text.  A text in front of its kind is read before its meaning is
  known, so there it has to be a text by itself. -/
  kindAndText? : (kindName textName : String) → (kinds : List String) → ν →
      Option (String × String) := fun kindName textName kinds d => do
    let f ← fields? [kindName, textName] d
    let kind ← f.required kindName (choice? kinds)
    let t ←
      if (members? d).any (Fields.comesLater kindName textName) then
        f.required textName fun v => (content? v).bind Json.text?
      else f.required textName text?
    pure (kind, t)
  /-- A kind, in the member with the name `tag`, and what belongs to it, as plain JSON. -/
  kindAndBody? : (byPlace : Bool) → (tag : String) → (kinds : List String) → ν →
      Option (String × Json) := fun byPlace tag kinds d =>
    (content? d).bind (Json.kindAndBody? byPlace tag kinds)

/-- A member that may be missing or stand for nothing. -/
def Fields.optional {ν α : Type} [Document ν] (f : Fields ν) (name : String)
    (read : ν → Option α) : Option (Option α) :=
  match f name with
  | none => some none
  | some v => if Document.isNull v then some none else (read v).map some

namespace Document

variable {ν α : Type} [Document ν]

/-- Reads every value of a list. -/
def listOf (read : ν → Option α) (d : ν) : Option (List α) :=
  match items? d with
  | none => none
  | some items => items.mapM read

/-- Reads every value of a list, each with its place. -/
def listOfIndexed (read : Nat → ν → Option α) (d : ν) : Option (List α) :=
  match items? d with
  | none => none
  | some items => (items.zipIdx).mapM fun (v, i) => read i v

end Document

end RecordAccess
