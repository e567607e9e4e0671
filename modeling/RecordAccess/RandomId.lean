/-!
# Random ids

An id that nobody chose is a random number of 128 bits, written in hexadecimal digits in five
groups; six of its bits say that it is random.
-/

namespace RecordAccess.RandomId

/-- The last hexadecimal digits of a number. -/
def digits : (count : Nat) → Nat → List Char
  | 0, _ => []
  | count + 1, n => digits count (n / 16) ++ [Nat.digitChar (n % 16)]

/-- The number with the bits that mark it as random, at 48 to 51 from the first and at 64 to 65. -/
def marked (n : Nat) : Nat :=
  let n := n % Nat.pow 2 128
  let high := n / Nat.pow 2 80
  let middle := n / Nat.pow 2 64 % Nat.pow 2 12
  let low := n % Nat.pow 2 62
  high * Nat.pow 2 80 + (4 * Nat.pow 2 12 + middle) * Nat.pow 2 64 + 2 * Nat.pow 2 62 + low

/-- The id of a number. -/
def ofNumber (n : Nat) : String :=
  let ds := digits 32 (marked n)
  String.ofList (ds.take 8 ++ '-' :: (ds.drop 8).take 4 ++ '-' :: (ds.drop 12).take 4 ++
    '-' :: (ds.drop 16).take 4 ++ '-' :: ds.drop 20)

/-- One of many numbers made from one random number; different places give different numbers. -/
def spread (seed place : Nat) : Nat := seed + place * (Nat.pow 2 127 - 1)

end RecordAccess.RandomId
