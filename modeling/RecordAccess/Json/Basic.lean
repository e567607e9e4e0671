import RecordAccess.Decimal.Shortest
import RecordAccess.Text.Sorted

/-!
# JSON values

A `Json` value keeps the members of an object in the order of its text, repetitions included.
`canonical` is what a value means: of members with one name the last counts, and the order of
members does not matter, so they are sorted.  `depth` is the nesting of arrays and objects.
-/

namespace RecordAccess

/-- A number: an integer of at most 64 bits, or a double. -/
inductive Json.Number
  | integer (value : Int)
  | double (value : Decimal.Binary64)
deriving DecidableEq, Inhabited

/-- A JSON value. -/
inductive Json
  | null
  | bool (value : Bool)
  | number (value : Json.Number)
  | string (value : String)
  | array (items : List Json)
  | object (members : List (String × Json))
deriving Inhabited

namespace Json

open Text (sortedPut)

/-- The value of a natural number. -/
def nat (n : Nat) : Json := .number (.integer n)

/-- The value of a list of texts. -/
def strings (ts : List String) : Json := .array (ts.map .string)

/-- The value of a text that may be missing. -/
def optional : Option String → Json
  | none => .null
  | some t => .string t

/-! ### Nesting -/

mutual

/-- How deep arrays and objects are nested. -/
def depth : Json → Nat
  | .array items => 1 + depthItems items
  | .object members => 1 + depthMembers members
  | _ => 0

/-- The greatest nesting among the items of an array. -/
def depthItems : List Json → Nat
  | [] => 0
  | item :: items => max (depth item) (depthItems items)

/-- The greatest nesting among the members of an object. -/
def depthMembers : List (String × Json) → Nat
  | [] => 0
  | (_, value) :: members => max (depth value) (depthMembers members)

end

/-! ### Canonical form -/

mutual

/-- The value with the members of every object sorted by name, the last of a name alone. -/
def canonical : Json → Json
  | .array items => .array (canonicalItems items)
  | .object members => .object (canonicalMembers members [])
  | value => value

/-- The items of an array in canonical form. -/
def canonicalItems : List Json → List Json
  | [] => []
  | item :: items => canonical item :: canonicalItems items

/-- Puts the members of an object, in canonical form, into the sorted list `acc`. -/
def canonicalMembers : List (String × Json) → List (String × Json) → List (String × Json)
  | [], acc => acc
  | (name, value) :: members, acc => canonicalMembers members (sortedPut name (canonical value) acc)

end

/-! ### Looking inside -/

/-- The members of an object. -/
def members? : Json → Option (List (String × Json))
  | .object members => some members
  | _ => none

/-- The first member with a name. -/
def get? (j : Json) (name : String) : Option Json :=
  match j with
  | .object members => members.lookup name
  | _ => none

/-- The text of a string. -/
def text? : Json → Option String
  | .string t => some t
  | _ => none

/-- The truth value of a boolean. -/
def bool? : Json → Option Bool
  | .bool b => some b
  | _ => none

/-- The natural number that a value is. -/
def nat? : Json → Option Nat
  | .number (.integer (.ofNat n)) => some n
  | _ => none

/-- The items of an array. -/
def items? : Json → Option (List Json)
  | .array items => some items
  | _ => none

end Json

end RecordAccess
