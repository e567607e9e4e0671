import RecordAccess.Decimal.Digits
import RecordAccess.Text.Blank

/-!
# Durations

A duration is written as a sum of whole numbers with units, such as `1m 30s`; a lone zero needs no
unit.  `Duration.read?` gives its nanoseconds.  Whole seconds and every count have to fit 64 bits.
-/

namespace RecordAccess.Duration

/-- What one of a unit is: seconds, or the nanoseconds of a unit shorter than a second. -/
inductive Span
  | seconds (count : Nat)
  | nanoseconds (count : Nat)
deriving DecidableEq

/-- The units by name.  A month is the twelfth part of a year, and a year has 365.25 days. -/
def units : List (List String × Span) :=
  [(["nanos", "nsec", "ns"], .nanoseconds 1),
    (["usec", "us", "µs"], .nanoseconds 1000),
    (["millis", "msec", "ms"], .nanoseconds 1000000),
    (["seconds", "second", "secs", "sec", "s"], .seconds 1),
    (["minutes", "minute", "min", "mins", "m"], .seconds 60),
    (["hours", "hour", "hr", "hrs", "h"], .seconds 3600),
    (["days", "day", "d"], .seconds 86400),
    (["weeks", "week", "wk", "wks", "w"], .seconds 604800),
    (["months", "month", "M"], .seconds 2630016),
    (["years", "year", "yr", "yrs", "y"], .seconds 31557600)]

/-- The span of a unit. -/
def unit? (name : String) : Option Span := (units.find? fun u => u.1.contains name).map (·.2)

/-- Whether a character may stand in the name of a unit. -/
def isUnitChar (c : Char) : Bool := c.isAlpha || c = 'µ'

/-- Adds a number of units to a sum of nanoseconds. -/
def add? (sum count : Nat) (name : String) : Option Nat := do
  let (nanoseconds, size) ← match ← unit? name with
    | .seconds s => pure (count * s * 1000000000, count * s)
    | .nanoseconds n => pure (count * n, count * n)
  let total := sum + nanoseconds
  if size < Nat.pow 2 64 ∧ total / 1000000000 < Nat.pow 2 64 then some total else none

/-- Reads the number in front of a unit: its digits may stand apart, and the unit may as well. -/
def number? (cs : List Char) : Option (Nat × List Char) :=
  match Text.trimStart cs with
  | [] => none
  | d :: rest =>
    if d.isDigit then
      let part := rest.takeWhile fun c => c.isDigit || Text.isBlank c
      let n := Decimal.value (d :: part.filter Char.isDigit)
      if n < Nat.pow 2 64 then some (n, rest.drop part.length) else none
    else none

/-- Reads the rest of a sum. -/
def sum? : Nat → Nat → List Char → Option Nat
  | 0, _, _ => none
  | fuel + 1, sum, cs =>
    if (Text.trimStart cs).isEmpty then some sum
    else do
      let (count, rest) ← number? cs
      let name := rest.takeWhile isUnitChar
      let sum ← add? sum count (String.ofList name)
      sum? fuel sum (rest.drop name.length)

/-- The nanoseconds of a duration. -/
def read? (t : String) : Option Nat :=
  if t = "0" then some 0
  else if (Text.trimStart t.toList).isEmpty then none
  else sum? (t.length + 1) 0 t.toList

end RecordAccess.Duration
