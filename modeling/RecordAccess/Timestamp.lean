import RecordAccess.Decimal.Digits
import RecordAccess.Text.Blank

/-!
# Timestamps

A `Timestamp` is a moment in coordinated universal time, kept as the fields of the calendar and the
clock.  The type holds valid fields only.  A leap second prolongs the second before it: its
nanoseconds go on beyond `10^9`.

* `Timestamp.read?` accepts the date-time profile of the internet with any offset, relaxed in that
  fields may be short, a blank may stand for the `T` and blanks may surround the fields;
* `Timestamp.display` prints the moment with a `Z` and as few fraction digits as suffice, in
  groups of three;
* `Timestamp.le` is the order of time.
-/

namespace RecordAccess

/-! ### The calendar -/

namespace Calendar

/-- Whether a year has a 29 February. -/
def isLeap (year : Int) : Bool :=
  year % 4 = 0 && (year % 100 ≠ 0 || year % 400 = 0)

/-- The number of days in a month; months that do not exist have none. -/
def daysInMonth (year : Int) (month : Nat) : Nat :=
  if month = 2 then (if isLeap year then 29 else 28)
  else if month = 4 ∨ month = 6 ∨ month = 9 ∨ month = 11 then 30
  else if 1 ≤ month ∧ month ≤ 12 then 31
  else 0

/-- The day after a date. -/
def nextDay (year : Int) (month day : Nat) : Int × Nat × Nat :=
  if day < daysInMonth year month then (year, month, day + 1)
  else if month < 12 then (year, month + 1, 1)
  else (year + 1, 1, 1)

/-- The day before a date. -/
def previousDay (year : Int) (month day : Nat) : Int × Nat × Nat :=
  if 1 < day then (year, month, day - 1)
  else if 1 < month then (year, month - 1, daysInMonth year (month - 1))
  else (year - 1, 12, 31)

/-- Whether fields name a moment: a date of the calendar and a time of day. -/
def Valid (year : Int) (month day hour minute second nano : Nat) : Prop :=
  (-262143 ≤ year ∧ year ≤ 262142) ∧ (1 ≤ day ∧ day ≤ daysInMonth year month) ∧
    hour < 24 ∧ minute < 60 ∧ second < 60 ∧ nano < 2000000000

instance (year : Int) (month day hour minute second nano : Nat) :
    Decidable (Valid year month day hour minute second nano) :=
  inferInstanceAs (Decidable (_ ∧ _))

end Calendar

/-- A moment in coordinated universal time. -/
structure Timestamp where
  year : Int
  month : Nat
  day : Nat
  hour : Nat
  minute : Nat
  second : Nat
  /-- The nanoseconds since the second began. -/
  nano : Nat
  valid : Calendar.Valid year month day hour minute second nano
deriving DecidableEq

namespace Timestamp

/-- The timestamp with the given fields, when they name a moment. -/
def ofFields? (year : Int) (month day hour minute second nano : Nat) : Option Timestamp :=
  if h : Calendar.Valid year month day hour minute second nano then
    some ⟨year, month, day, hour, minute, second, nano, h⟩
  else none

/-- The last moment a timestamp can name. -/
def last : Timestamp := ⟨262142, 12, 31, 23, 59, 59, 1999999999, by decide⟩

instance : Inhabited Timestamp := ⟨last⟩

/-- The moment whose fields, on a clock ahead by `offset` minutes, are the given ones.  Offsets stay
below a day. -/
def ofLocal? (year : Int) (month day hour minute second nano : Nat) (offset : Int) :
    Option Timestamp :=
  if ¬ Calendar.Valid year month day hour minute second nano then none
  else if 1440 ≤ offset ∨ offset ≤ -1440 then none
  else
    let total : Int := (60 * hour + minute : Nat) - offset
    let (y, m, d) :=
      if total < 0 then Calendar.previousDay year month day
      else if 1440 ≤ total then Calendar.nextDay year month day
      else (year, month, day)
    let ofDay := (total % 1440).toNat
    ofFields? y m d (ofDay / 60) (ofDay % 60) second nano

/-! ### Order -/

/-- The fields from the largest unit to the smallest. -/
def key (t : Timestamp) : List Int :=
  [t.year, t.month, t.day, t.hour, t.minute, t.second, t.nano]

/-- Whether one list of fields comes no later than another. -/
def keyLe : List Int → List Int → Bool
  | [], _ => true
  | _ :: _, [] => false
  | a :: as, b :: bs => a < b || (a = b && keyLe as bs)

/-- Whether one moment comes no later than another. -/
def le (s t : Timestamp) : Bool := keyLe s.key t.key

/-! ### Printing -/

/-- The fraction of a second, in the fewest groups of three digits. -/
def fraction (nano : Nat) : List Char :=
  if nano = 0 then []
  else if nano % 1000000 = 0 then '.' :: Decimal.padded 3 (nano / 1000000)
  else if nano % 1000 = 0 then '.' :: Decimal.padded 6 (nano / 1000)
  else '.' :: Decimal.padded 9 nano

/-- The year; one outside four digits carries its sign. -/
def yearDigits (year : Int) : List Char :=
  if year < 0 then '-' :: Decimal.padded 4 year.natAbs
  else if year ≤ 9999 then Decimal.padded 4 year.natAbs
  else '+' :: Decimal.padded 4 year.natAbs

/-- The characters of a timestamp's text. -/
def chars (t : Timestamp) : List Char :=
  yearDigits t.year ++ '-' :: Decimal.padded 2 t.month ++ '-' :: Decimal.padded 2 t.day ++
    'T' :: Decimal.padded 2 t.hour ++ ':' :: Decimal.padded 2 t.minute ++
    ':' :: Decimal.padded 2 (t.second + t.nano / 1000000000) ++ fraction (t.nano % 1000000000) ++
    ['Z']

/-- The text of a timestamp. -/
def display (t : Timestamp) : String := String.ofList t.chars

/-! ### Reading -/

/-- Reads a number of one to `width` digits, after blanks. -/
def number? (width : Nat) (cs : List Char) : Option (Nat × List Char) :=
  match Decimal.leading width (Text.trimStart cs) with
  | ([], _) => none
  | (ds, rest) => some (Decimal.value ds, rest)

/-- Reads a year: up to four digits, or a sign and any number of digits. -/
def year? (cs : List Char) : Option (Int × List Char) :=
  match Text.trimStart cs with
  | '-' :: rest =>
    match Decimal.run rest with
    | ([], _) => none
    | (ds, rest) => some (-(Decimal.value ds : Int), rest)
  | '+' :: rest =>
    match Decimal.run rest with
    | ([], _) => none
    | (ds, rest) => some (Decimal.value ds, rest)
  | cs => (number? 4 cs).map fun (n, rest) => ((n : Int), rest)

/-- Drops blanks and then one given character. -/
def mark? (c : Char) (cs : List Char) : Option (List Char) :=
  match Text.trimStart cs with
  | d :: rest => if d = c then some rest else none
  | [] => none

/-- Reads the fraction of a second, if there is one; digits beyond the ninth are dropped. -/
def fraction? : List Char → Option (Nat × List Char)
  | '.' :: rest =>
    match Decimal.leading 9 rest with
    | ([], _) => none
    | (ds, rest) =>
      some (Decimal.value ds * Nat.pow 10 (9 - ds.length), rest.dropWhile Char.isDigit)
  | cs => some (0, cs)

/-- Reads two digits. -/
def twoDigits? : List Char → Option (Nat × List Char)
  | a :: b :: rest =>
    if a.isDigit && b.isDigit then some (Decimal.value [a, b], rest) else none
  | _ => none

/-- Reads an offset in minutes: `Z`, `UTC`, or a signed count of hours and minutes. -/
def offset? (cs : List Char) : Option (Int × List Char) :=
  match cs with
  | 'Z' :: rest => some (0, rest)
  | 'z' :: rest => some (0, rest)
  | sign :: rest =>
    if sign = '+' ∨ sign = '-' ∨ sign = '−' then do
      let (hours, rest) ← twoDigits? rest
      let (minutes, rest) ← twoDigits? (rest.dropWhile fun c => c = ':' || Text.isBlank c)
      if 60 ≤ minutes then none
      else
        let total : Int := (60 * hours + minutes : Nat)
        some (if sign = '+' then total else -total, rest)
    else if (cs.take 3).map Char.toUpper = ['U', 'T', 'C'] then some (0, cs.drop 3)
    else none
  | [] => none

/-- The second and its nanoseconds that a clock shows as a second and a fraction.  Second 60 goes on
from second 59. -/
def ofClock (second fraction : Nat) : Nat × Nat :=
  if second = 60 then (59, 1000000000 + fraction) else (second, fraction)

/-- Reads the characters of a timestamp's text. -/
def ofChars? (cs : List Char) : Option Timestamp := do
  let (year, cs) ← year? cs
  let cs ← mark? '-' cs
  let (month, cs) ← number? 2 cs
  let cs ← mark? '-' cs
  let (day, cs) ← number? 2 cs
  let cs ← match cs with
    | c :: rest => if c = 'T' ∨ c = 't' ∨ c = ' ' then some rest else none
    | [] => none
  let (hour, cs) ← number? 2 cs
  let cs ← mark? ':' cs
  let (minute, cs) ← number? 2 cs
  let cs ← mark? ':' cs
  let (second, cs) ← number? 2 cs
  let (fraction, cs) ← fraction? cs
  let (second, nano) := ofClock second fraction
  let (offset, cs) ← offset? (Text.trimStart cs)
  if (Text.trimStart cs).isEmpty then ofLocal? year month day hour minute second nano offset
  else none

/-- Reads a timestamp's text. -/
def read? (text : String) : Option Timestamp := ofChars? text.toList

/-! ### Text forms -/

/-- A way to write moments as texts and to read them. -/
class TextForm where
  /-- The text of a moment. -/
  display : Timestamp → String
  /-- Reads a text that names a moment. -/
  read? : String → Option Timestamp

instance : TextForm := ⟨display, read?⟩

end Timestamp

end RecordAccess
