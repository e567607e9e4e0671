/-!
# Decimal digits

Natural numbers as runs of digits: `written` and `padded` print them, `leading` and `run` split
a run off a text and `value` reads it.
-/

namespace RecordAccess.Decimal

/-- The digits of a number, without leading zeros. -/
def written (n : Nat) : List Char := Nat.toDigits 10 n

/-- The digits of a number, filled with zeros up to a width. -/
def padded (width n : Nat) : List Char :=
  List.replicate (width - (written n).length) '0' ++ written n

/-- The decimal text of a number. -/
def text (n : Nat) : String := String.ofList (written n)

/-- The decimal text of an integer. -/
def intText : Int → String
  | .ofNat n => text n
  | .negSucc n => "-" ++ text (n + 1)

/-- The number that a digit stands for. -/
def digitValue (c : Char) : Nat := c.toNat - '0'.toNat

/-- Reads a run of digits. -/
def value (ds : List Char) : Nat := ds.foldl (fun n c => 10 * n + digitValue c) 0

/-- Splits the digits off the front of a text, at most `limit` of them. -/
def leading : (limit : Nat) → List Char → List Char × List Char
  | 0, cs => ([], cs)
  | _ + 1, [] => ([], [])
  | limit + 1, c :: cs =>
    if c.isDigit then
      let (ds, rest) := leading limit cs
      (c :: ds, rest)
    else ([], c :: cs)

/-- Splits the whole run of digits off the front of a text. -/
def run (cs : List Char) : List Char × List Char :=
  (cs.takeWhile Char.isDigit, cs.dropWhile Char.isDigit)

/-- Reads a text that consists of digits alone and stays within a bound; one plus sign may stand
in front. -/
def bounded? (bound : Nat) (t : String) : Option Nat :=
  let ds := match t.toList with
    | '+' :: rest => rest
    | cs => cs
  if ds.isEmpty || !ds.all Char.isDigit then none
  else if value ds ≤ bound then some (value ds) else none

end RecordAccess.Decimal
