import RecordAccess.Decimal.Binary64

/-!
# Doubles from text

`Binary64.ofText?` reads the usual notation: a sign, digits with at most one point among or around
them, and an exponent.  Numbers too large for a double are refused.
-/

namespace RecordAccess.Decimal.Binary64

/-- Reads an exponent and nothing after it. -/
def exponentOf? : List Char → Option Int
  | [] => some 0
  | e :: rest =>
    if e = 'e' ∨ e = 'E' then
      let (negative, ds) : Bool × List Char := match rest with
        | '+' :: ds => (false, ds)
        | '-' :: ds => (true, ds)
        | ds => (false, ds)
      if ds.isEmpty || !ds.all Char.isDigit then none
      else some (if negative then -(value ds : Int) else value ds)
    else none

/-- The digits and the power of ten of a number without a sign. -/
def parts? (cs : List Char) : Option (Nat × Int) := do
  let (whole, rest) := run cs
  let (fraction, rest) := match rest with
    | '.' :: rest => run rest
    | rest => ([], rest)
  if whole.isEmpty && fraction.isEmpty then none
  else
    let e ← exponentOf? rest
    pure (value (whole ++ fraction), e - fraction.length)

/-- Splits the sign off a text: whether it is a minus, and the rest. -/
def splitSign : List Char → Bool × List Char
  | '-' :: rest => (true, rest)
  | '+' :: rest => (false, rest)
  | cs => (false, cs)

/-- Reads a number. -/
def ofText? (t : String) : Option Binary64 := do
  let (negative, cs) := splitSign t.toList
  let (digits, exponent) ← parts? cs
  ofDecimal? negative digits exponent

end RecordAccess.Decimal.Binary64
