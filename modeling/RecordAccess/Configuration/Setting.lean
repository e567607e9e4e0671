import RecordAccess.Decimal.Shortest
import RecordAccess.Document
import RecordAccess.Text.LowerCase
import RecordAccess.Text.Sorted

/-!
# Settings as documents

A `Setting` is a value that comes from a file or from the environment, where everything is text; so
a text may stand for a number or a truth value and the other way round.  Names are in lower case,
and choices do not depend on case.

`Setting.put` sets a name in a table: tables are merged member by member, and any other value takes
the place of the old one.  `Setting.putAt` does the same at a path into nested tables.
-/

namespace RecordAccess

/-- A value of a configuration. -/
inductive Setting
  | nothing
  | bool (value : Bool)
  | integer (value : Int)
  | double (value : Decimal.Binary64)
  /-- A number that is larger than any other, or smaller. -/
  | infinite (negative : Bool)
  /-- The result of an undefined operation on numbers. -/
  | undefined
  | text (value : String)
  | list (items : List Setting)
  | table (members : List (String × Setting))
deriving Inhabited

namespace Setting

/-! ### Merging -/

/-- The members of a table; any other value has none. -/
def members : Setting → List (String × Setting)
  | .table ms => ms
  | _ => []

/-- The items of a list; any other value has none. -/
def items : Setting → List Setting
  | .list xs => xs
  | _ => []

/-- The value with one member set; a value that is no table becomes one. -/
def withMember (name : String) (value root : Setting) : Setting :=
  .table (Text.sortedPut name value root.members)

mutual

/-- Sets a name in a table. -/
def put (name : String) : Setting → Setting → Setting
  | .table incoming, root =>
    let name := Text.lowerCase name
    withMember name (putAll incoming ((root.members.lookup name).getD (.table []))) root
  | value, root => withMember (Text.lowerCase name) value root

/-- Sets every member of a table in another one. -/
def putAll : List (String × Setting) → Setting → Setting
  | [], target => target
  | (name, value) :: rest, target => putAll rest (put name value target)

end

/-! ### Paths -/

/-- A step into a value. -/
inductive Step
  | member (name : String)
  /-- A place in a list, counted from its end if it is negative. -/
  | index (place : Int)
deriving DecidableEq

/-- The place in a list of some length. -/
def placeIn (length : Nat) : Int → Nat
  | .ofNat n => n
  | .negSucc n => length - (n + 1)

/-- The list with one place changed; missing places hold nothing. -/
def changeItem (xs : List Setting) (place : Int) (f : Setting → Setting) : List Setting :=
  let n := placeIn xs.length place
  let xs := xs ++ List.replicate (n + 1 - xs.length) .nothing
  xs.modify n f

/-- Changes the value at a path, making the tables and lists on the way. -/
def changeAt (f : Setting → Setting) : List Step → Setting → Setting
  | [], s => f s
  | .member name :: rest, s =>
    let name := Text.lowerCase name
    withMember name (changeAt f rest ((s.members.lookup name).getD .nothing)) s
  | .index place :: rest, s => .list (changeItem s.items place (changeAt f rest))

/-- Sets the value at a path. -/
def putAt (path : List Step) (value root : Setting) : Setting :=
  match path.getLast? with
  | none => root
  | some (.member name) => changeAt (put name value) path.dropLast root
  | some (.index place) =>
    changeAt (fun s => .list (changeItem s.items place fun _ => value)) path.dropLast root

/-- Whether a character may stand in a name on a path. -/
def isNameChar (c : Char) : Bool := c.isAlphanum || c = ' ' || c = '_' || c = '-'

/-- Reads a place in brackets, after the opening one. -/
def index? (cs : List Char) : Option (Int × List Char) :=
  let isGap (c : Char) : Bool := c = ' ' || c = '\t'
  let (negative, cs) : Bool × List Char := match cs.dropWhile isGap with
    | '-' :: rest => (true, rest)
    | rest => (false, rest)
  let (ds, rest) := Decimal.run cs
  let n := Decimal.value ds
  match rest.dropWhile isGap with
  | ']' :: rest =>
    if ds.isEmpty || Nat.pow 2 63 ≤ n then none
    else some (if negative then -(n : Int) else n, rest)
  | _ => none

/-- Reads the further steps of a path. -/
def steps? : Nat → List Char → Option (List Step)
  | 0, _ => none
  | _ + 1, [] => some []
  | fuel + 1, '.' :: rest =>
    let name := rest.takeWhile isNameChar
    if name.isEmpty then none
    else (steps? fuel (rest.drop name.length)).map (.member (String.ofList name) :: ·)
  | fuel + 1, '[' :: rest => do
    let (place, rest) ← index? rest
    let steps ← steps? fuel rest
    pure (.index place :: steps)
  | _ + 1, _ => none

/-- The path that a name with dots and brackets stands for.  A name that is written in no such way
is one step. -/
def pathOf (name : String) : List Step :=
  let first := name.toList.takeWhile isNameChar
  let path := if first.isEmpty then none
    else (steps? (name.length + 1) (name.toList.drop first.length)).map
      (.member (String.ofList first) :: ·)
  path.getD [.member name]

/-- Adds a layer of settings, whose names are paths, over others. -/
def overlay (layer : List (String × Setting)) (root : Setting) : Setting :=
  layer.foldl (fun s m => putAt (pathOf m.1) m.2 s) root

/-! ### Meaning -/

/-- The text that a value stands for. -/
def text? : Setting → Option String
  | .text t => some t
  | .bool b => some (if b then "true" else "false")
  | .integer i => some (Decimal.intText i)
  | .double d => some (Decimal.Layout.plain.write d)
  | .infinite negative => some (if negative then "-inf" else "inf")
  | .undefined => some "NaN"
  | _ => none

/-- The words for true. -/
def isTrueWord (t : String) : Bool := t = "true" || t = "on" || t = "yes"

/-- The words for false. -/
def isFalseWord (t : String) : Bool := t = "false" || t = "off" || t = "no"

/-- The truth value that a value stands for; of numbers only zero is false. -/
def bool? : Setting → Option Bool
  | .bool b => some b
  | .integer i => some (i ≠ 0)
  | .double d => some (d.significand ≠ 0)
  | .infinite _ => some true
  | .undefined => some true
  | .text t =>
    let t := Text.lowerCase t
    if t = "1" || isTrueWord t then some true
    else if t = "0" || isFalseWord t then some false
    else none
  | _ => none

/-- The greatest number of 64 bits. -/
def greatest : Nat := Nat.pow 2 64 - 1

/-- The natural number of 64 bits that a value stands for; doubles are rounded and kept in range. -/
def nat? : Setting → Option Nat
  | .bool b => some (if b then 1 else 0)
  | .integer (.ofNat n) => some n
  | .double d => some (min d.roundAway.toNat greatest)
  | .infinite negative => some (if negative then 0 else greatest)
  | .undefined => some 0
  | .text t =>
    if isTrueWord (Text.lowerCase t) then some 1
    else if isFalseWord (Text.lowerCase t) then some 0
    else Decimal.bounded? greatest t
  | _ => none

/-- Which of the given names a value chooses. -/
def choice? (names : List String) : Setting → Option String
  | .text t => names.find? fun n => Text.lowerCase n = Text.lowerCase t
  | .table [(t, _)] => names.find? fun n => Text.lowerCase n = Text.lowerCase t
  | _ => none

/-- The members with the given names of a record, which may also be the list of its values. -/
def fields? (names : List String) : Setting → Option (Fields Setting)
  | .table ms => Fields.ofMembers? names ms
  | .list xs => some (Fields.ofPositions names xs)
  | _ => none

instance : Document Setting where
  isNull
    | .nothing => true
    | _ => false
  text? := text?
  bool? := bool?
  nat? := nat?
  choice? := choice?
  items?
    | .list xs => some xs
    | _ => none
  members?
    | .table ms => some ms
    | _ => none
  fields? := fields?
  content? := fun _ => none

end Setting

end RecordAccess
