import RecordAccess.Decimal.Text
import RecordAccess.Json.Reader

/-!
# Types of plain scalars

A scalar without quotes may stand for nothing, a truth value or a number; any other is text.  Digits
after a leading zero are text.
-/

namespace RecordAccess.Yaml

/-- Whether a plain scalar stands for nothing. -/
def isNullText (t : String) : Bool :=
  t = "" || t = "~" || t = "null" || t = "Null" || t = "NULL"

/-- The truth value that a plain scalar stands for. -/
def boolOf? (t : String) : Option Bool :=
  if t = "true" || t = "True" || t = "TRUE" then some true
  else if t = "false" || t = "False" || t = "FALSE" then some false
  else none

/-- A text without its sign. -/
def unsigned : List Char → List Char
  | '-' :: cs => cs
  | '+' :: cs => cs
  | cs => cs

/-- Whether a text has nothing but digits after a leading zero. -/
def hasLeadingZero (cs : List Char) : Bool :=
  match unsigned cs with
  | '0' :: d :: ds => (d :: ds).all Char.isDigit
  | _ => false

/-- The number that digits of a base stand for. -/
def digitsOf? (base : Nat) (ds : List Char) : Option Nat :=
  if ds.isEmpty then none
  else ds.foldlM (fun n d => do
    let x ← Json.Reader.hexValue? d
    if x < base then some (base * n + x) else none) 0

/-- The natural number that a text without a sign stands for; one letter after a zero gives the
base. -/
def naturalOf? (cs : List Char) : Option Nat :=
  let marked := match cs with
    | '0' :: 'x' :: ds => digitsOf? 16 ds
    | '0' :: 'o' :: ds => digitsOf? 8 ds
    | '0' :: 'b' :: ds => digitsOf? 2 ds
    | _ => none
  marked <|> (if hasLeadingZero cs then none else digitsOf? 10 cs)

/-- The integer that a plain scalar stands for. -/
def integerOf? (t : String) : Option Int :=
  match t.toList with
  | '-' :: cs => (naturalOf? cs).map fun n => -(n : Int)
  | '+' :: cs => (naturalOf? cs).map Int.ofNat
  | cs => (naturalOf? cs).map Int.ofNat

/-- Whether a plain scalar stands for a number that is infinite or undefined. -/
def isUnbounded (t : String) : Bool :=
  [".inf", ".Inf", ".INF", "+.inf", "+.Inf", "+.INF", "-.inf", "-.Inf", "-.INF", ".nan", ".NaN",
    ".NAN"].contains t

/-- The double that a plain scalar stands for. -/
def doubleOf? (t : String) : Option Decimal.Binary64 :=
  let afterPlus := match t.toList with
    | '+' :: cs => cs
    | cs => cs
  let signedTwice := t.toList.head? = some '+' && (afterPlus.head?.any fun c => c = '+' || c = '-')
  if signedTwice || hasLeadingZero t.toList then none
  else Decimal.Binary64.ofText? t

/-- The value of a plain scalar that is no integer: nothing if it is unbounded, a double or a
text. -/
def otherValue (t : String) : Json :=
  if isUnbounded t then .null
  else
    match doubleOf? t with
    | some d => .number (.double d)
    | none => .string t

/-- The value of a plain scalar.  Integers that have more than 64 bits and at most 128 have none. -/
def plainValue? (t : String) : Option Json :=
  if isNullText t then some .null
  else
    match boolOf? t with
    | some b => some (.bool b)
    | none =>
      match integerOf? t with
      | some i =>
        if -Int.pow 2 63 ≤ i ∧ i < Int.pow 2 64 then some (.number (.integer i))
        else if -Int.pow 2 127 ≤ i ∧ i < Int.pow 2 128 then none
        else some (otherValue t)
      | none => some (otherValue t)

end RecordAccess.Yaml
