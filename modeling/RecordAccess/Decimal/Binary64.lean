import RecordAccess.Decimal.Digits

/-!
# Double-precision numbers

A finite double is a sign, a significand and a power of two.  All arithmetic is exact on natural
numbers and then rounded once, to the nearest double, ties to the even significand.

* `Binary64.ofRatio?` rounds a quotient;
* `Binary64.ofDecimal?` rounds a decimal number;
* `Binary64.mul?` and `Binary64.div?` are the rounded operations.
-/

namespace RecordAccess.Decimal

/-- A finite double: `(-1)^negative * significand * 2^exponent`, where the significand has at most
53 bits, and exactly 53 unless the exponent is the least one. -/
structure Binary64 where
  negative : Bool
  significand : Nat
  exponent : Int
deriving DecidableEq, Inhabited

namespace Binary64

/-- The least exponent of a double. -/
def minExponent : Int := -1074

/-- The greatest exponent of a double. -/
def maxExponent : Int := 971

/-- The double zero. -/
def zero : Binary64 := ⟨false, 0, minExponent⟩

/-- The number of bits of a natural number. -/
def bitLength (n : Nat) : Nat := if n = 0 then 0 else n.log2 + 1

/-- The quotient rounded to the nearest natural number, a half to the even one. -/
def roundDiv (num den : Nat) : Nat :=
  let q := num / den
  let twice := 2 * (num % den)
  if twice < den then q
  else if den < twice then q + 1
  else if q % 2 = 0 then q else q + 1

/-- The double nearest to `num / den`, unless it is out of range. -/
def ofRatio? (negative : Bool) (num den : Nat) : Option Binary64 :=
  if num = 0 ∨ den = 0 then some { zero with negative }
  else
    let guess : Int := (bitLength num : Int) - bitLength den - 53
    let round (e : Int) : Nat :=
      if 0 ≤ e then roundDiv num (den * Nat.pow 2 e.toNat)
      else roundDiv (num * Nat.pow 2 (-e).toNat) den
    let place (e : Int) : Nat :=
      if 0 ≤ e then num / (den * Nat.pow 2 e.toNat) else num * Nat.pow 2 (-e).toNat / den
    let e := max minExponent (if place guess < Nat.pow 2 53 then guess else guess + 1)
    let m := round e
    let (m, e) := if m = Nat.pow 2 53 then (Nat.pow 2 52, e + 1) else (m, e)
    if maxExponent < e then none else some ⟨negative, m, e⟩

/-- The double nearest to a natural number. -/
def ofNat? (n : Nat) : Option Binary64 := ofRatio? false n 1

/-- The double nearest to `digits * 10^exponent`. -/
def ofDecimal? (negative : Bool) (digits : Nat) (exponent : Int) : Option Binary64 :=
  if digits = 0 then some { zero with negative }
  else if 400 < exponent then none
  else if exponent < -20000 then some { zero with negative }
  else if 0 ≤ exponent then ofRatio? negative (digits * Nat.pow 10 exponent.toNat) 1
  else ofRatio? negative digits (Nat.pow 10 (-exponent).toNat)

/-- The rounded product. -/
def mul? (a b : Binary64) : Option Binary64 :=
  let e := a.exponent + b.exponent
  let m := a.significand * b.significand
  if 0 ≤ e then ofRatio? (a.negative != b.negative) (m * Nat.pow 2 e.toNat) 1
  else ofRatio? (a.negative != b.negative) m (Nat.pow 2 (-e).toNat)

/-- The rounded quotient of a double by one that is not zero. -/
def div? (a b : Binary64) : Option Binary64 :=
  let e := a.exponent - b.exponent
  if 0 ≤ e then
    ofRatio? (a.negative != b.negative) (a.significand * Nat.pow 2 e.toNat) b.significand
  else
    ofRatio? (a.negative != b.negative) a.significand (b.significand * Nat.pow 2 (-e).toNat)

/-- The double with the other sign. -/
def neg (a : Binary64) : Binary64 := { a with negative := !a.negative }

/-- The nearest integer, a half away from zero. -/
def roundAway (a : Binary64) : Int :=
  let n : Nat :=
    if 0 ≤ a.exponent then a.significand * Nat.pow 2 a.exponent.toNat
    else (2 * a.significand + Nat.pow 2 (-a.exponent).toNat) / (2 * Nat.pow 2 (-a.exponent).toNat)
  if a.negative then -(n : Int) else n

end Binary64

end RecordAccess.Decimal
