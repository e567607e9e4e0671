import RecordAccess.Decimal.Binary64

/-!
# Shortest decimal text of a double

`shortest` finds the fewest digits that read back as the same double and, of those, the digits
nearest to it.  `Layout` holds the choices of a written format; `Layout.json` is the one documents
use and `Layout.plain` never writes an exponent.
-/

namespace RecordAccess.Decimal

namespace Binary64

/-- The interval of numbers that round to a double with positive significand: its two ends as
numerators over a common power, `2^exponent / 4`, and whether the ends belong to it. -/
def interval (a : Binary64) : Nat × Nat × Bool :=
  let low :=
    if a.significand = Nat.pow 2 52 ∧ minExponent < a.exponent then 4 * a.significand - 1
    else 4 * a.significand - 2
  (low, 4 * a.significand + 2, a.significand % 2 = 0)

/-- The digits and the power of ten of a double on the grid of multiples of `10^k`, if one of its
two neighbours there lies in the interval. -/
def onGrid? (a : Binary64) (k : Int) : Option Nat :=
  let (low, high, closed) := a.interval
  let scaleUp := Nat.pow 2 (a.exponent - 2).toNat * Nat.pow 10 (-k).toNat
  let scaleDown := Nat.pow 2 (2 - a.exponent).toNat * Nat.pow 10 k.toNat
  -- a grid point g stands for g * scaleDown over a unit that makes the value `4 * m * scaleUp`
  let value := 4 * a.significand * scaleUp
  let below := value / scaleDown
  let inside (g : Nat) : Bool :=
    let x := g * scaleDown
    if closed then low * scaleUp ≤ x && x ≤ high * scaleUp
    else low * scaleUp < x && x < high * scaleUp
  let near := 2 * (value - below * scaleDown)
  if inside below && inside (below + 1) then
    if near < scaleDown then some below
    else if scaleDown < near then some (below + 1)
    else if below % 2 = 0 then some below else some (below + 1)
  else if inside below then some below
  else if inside (below + 1) then some (below + 1)
  else none

/-- The largest power of ten that is tried first: one above the leading digit. -/
def startPower (a : Binary64) : Int :=
  let bits : Int := (bitLength a.significand : Int) + a.exponent
  bits * 30103 / 100000 + 1

/-- The first grid with a neighbour in the interval, from coarse to fine. -/
def search (a : Binary64) : Nat → Int → Nat × Int
  | 0, k => (0, k)
  | fuel + 1, k =>
    match a.onGrid? k with
    | some g => if g = 0 then search a fuel (k - 1) else (g, k)
    | none => search a fuel (k - 1)

/-- Drops the zeros at the end of a number into the power of ten. -/
def strip : Nat → Nat → Int → Nat × Int
  | 0, n, k => (n, k)
  | fuel + 1, n, k => if n ≠ 0 ∧ n % 10 = 0 then strip fuel (n / 10) (k + 1) else (n, k)

/-- The fewest digits, and their power of ten, that read back as the double. -/
def shortest (a : Binary64) : Nat × Int :=
  if a.significand = 0 then (0, 0)
  else
    let (n, k) := a.search 25 a.startPower
    strip 25 n k

end Binary64

/-- The choices of a written format of doubles. -/
structure Layout where
  /-- The least power of ten of the first digit that is still written without an exponent. -/
  leastPositional : Int
  /-- The greatest power of ten of the first digit that is still written without an exponent. -/
  greatestPositional : Int
  /-- Whether a whole number is written with `.0`. -/
  pointAlways : Bool

namespace Layout

/-- Documents write an exponent below `1e-5` and from `1e16` on, and mark whole numbers. -/
def json : Layout := ⟨-5, 15, true⟩

/-- Plain text never has an exponent. -/
def plain : Layout := ⟨-400, 400, false⟩

/-- The text of a double in a format. -/
def write (l : Layout) (a : Binary64) : String :=
  let (n, k) := a.shortest
  let ds := written n
  let first : Int := ds.length - 1 + k
  let sign := if a.negative then ['-'] else []
  let body :=
    if n = 0 then (if l.pointAlways then ['0', '.', '0'] else ['0'])
    else if l.leastPositional ≤ first ∧ first ≤ l.greatestPositional then
      if 0 ≤ k then
        ds ++ List.replicate k.toNat '0' ++ (if l.pointAlways then ['.', '0'] else [])
      else if 0 ≤ first then
        ds.take (first.toNat + 1) ++ '.' :: ds.drop (first.toNat + 1)
      else '0' :: '.' :: List.replicate (-first - 1).toNat '0' ++ ds
    else
      let tail := if ds.length = 1 then [] else '.' :: ds.drop 1
      ds.take 1 ++ tail ++ 'e' :: (intText first).toList
  String.ofList (sign ++ body)

end Layout

end RecordAccess.Decimal
