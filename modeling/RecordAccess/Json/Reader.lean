import RecordAccess.Json.Basic

/-!
# Reading JSON text

`Json.read?` reads a text that holds one value and nothing else.  The grammar is the strict one: no
comments, no trailing commas, no leading zeros, escapes as in the standard with surrogates in pairs.
Arrays and objects nest at most `maxDepth` deep.

An integer that fits 64 bits, with or without a sign, stays an integer; every other number becomes a
double.  The double is computed from the first digits that fit 64 bits and one multiplication or
division by a power of ten (`Reader.scaled?`); a number too large for a double is refused.
-/

namespace RecordAccess.Json

/-- The greatest nesting that is read. -/
def maxDepth : Nat := 127

namespace Reader

/-- The greatest unsigned integer of 64 bits. -/
def maxUnsigned : Nat := Nat.pow 2 64 - 1

/-- The blanks between tokens. -/
def isSpace (c : Char) : Bool := c = ' ' || c = '\n' || c = '\t' || c = '\r'

/-- Drops the blanks in front. -/
def skipSpace (cs : List Char) : List Char := cs.dropWhile isSpace

/-! ### Strings -/

/-- The value of a hexadecimal digit. -/
def hexValue? (c : Char) : Option Nat :=
  if '0' ≤ c ∧ c ≤ '9' then some (c.toNat - '0'.toNat)
  else if 'a' ≤ c ∧ c ≤ 'f' then some (c.toNat - 'a'.toNat + 10)
  else if 'A' ≤ c ∧ c ≤ 'F' then some (c.toNat - 'A'.toNat + 10)
  else none

/-- The value of four hexadecimal digits. -/
def hex4? (a b c d : Char) : Option Nat := do
  let a ← hexValue? a
  let b ← hexValue? b
  let c ← hexValue? c
  let d ← hexValue? d
  pure (4096 * a + 256 * b + 16 * c + d)

/-- The character of a one-letter escape. -/
def simpleEscape? (c : Char) : Option Char :=
  if c = '\x22' then some '\x22'
  else if c = '\\' then some '\\'
  else if c = '/' then some '/'
  else if c = 'b' then some '\x08'
  else if c = 'f' then some '\x0c'
  else if c = 'n' then some '\n'
  else if c = 'r' then some '\r'
  else if c = 't' then some '\t'
  else none

/-- Reads a string after its opening quote, up to and with the closing one. -/
def stringTail? : List Char → Option (List Char × List Char)
  | [] => none
  | '\x22' :: rest => some ([], rest)
  | '\\' :: 'u' :: a :: b :: c :: d :: rest =>
    match hex4? a b c d with
    | none => none
    | some unit =>
      if 0xD800 ≤ unit ∧ unit < 0xDC00 then
        match rest with
        | '\\' :: 'u' :: e :: f :: g :: h :: rest' =>
          match hex4? e f g h with
          | none => none
          | some low =>
            if 0xDC00 ≤ low ∧ low < 0xE000 then
              let code := 0x10000 + (unit - 0xD800) * 0x400 + (low - 0xDC00)
              (stringTail? rest').map fun (s, r) => (Char.ofNat code :: s, r)
            else none
        | _ => none
      else if 0xDC00 ≤ unit ∧ unit < 0xE000 then none
      else (stringTail? rest).map fun (s, r) => (Char.ofNat unit :: s, r)
  | '\\' :: c :: rest =>
    match simpleEscape? c with
    | none => none
    | some e => (stringTail? rest).map fun (s, r) => (e :: s, r)
  | c :: rest =>
    if c = '\\' then none
    else if c.toNat < 32 then none
    else (stringTail? rest).map fun (s, r) => (c :: s, r)

/-! ### Numbers -/

/-- The double `±digits * 10^exponent`, where the digits, rounded to a double, are multiplied or
divided by powers of ten that are doubles themselves. -/
def scaled? (negative : Bool) (digits : Nat) (exponent : Int) : Option Number := do
  let start ← Decimal.Binary64.ofNat? digits
  let d ← go 40 start exponent
  pure (.double (if negative then d.neg else d))
where
  /-- Applies the power of ten, a division by more than `10^308` in steps. -/
  go : Nat → Decimal.Binary64 → Int → Option Decimal.Binary64
    | 0, d, _ => some { Decimal.Binary64.zero with negative := d.negative }
    | fuel + 1, d, e =>
      if e.natAbs ≤ 308 then do
        let power ← Decimal.Binary64.ofNat? (Nat.pow 10 e.natAbs)
        if 0 ≤ e then d.mul? power else d.div? power
      else if d.significand = 0 then some d
      else if 0 ≤ e then none
      else do
        let power ← Decimal.Binary64.ofNat? (Nat.pow 10 308)
        let d ← d.div? power
        go fuel d (e + 308)

/-- Takes digits into a number as long as it fits 64 bits; says how many were taken and what is
left of the run. -/
def fitting : (acc : Nat) → (taken : Nat) → List Char → Nat × Nat × List Char
  | acc, taken, [] => (acc, taken, [])
  | acc, taken, d :: ds =>
    let next := 10 * acc + Decimal.digitValue d
    if next ≤ maxUnsigned then fitting next (taken + 1) ds else (acc, taken, d :: ds)

/-- Reads the exponent of a number, if there is one: its value and the rest. -/
def exponent? : List Char → Option (Option Int × List Char)
  | [] => some (none, [])
  | c :: rest =>
    if c = 'e' ∨ c = 'E' then
      let (negative, rest) := match rest with
        | '+' :: r => (false, r)
        | '-' :: r => (true, r)
        | r => (false, r)
      match Decimal.run rest with
      | ([], _) => none
      | (ds, rest) =>
        let n : Int := Decimal.value ds
        some (some (if negative then -n else n), rest)
    else some (none, c :: rest)

/-- The number with the given sign, whole digits, fraction digits and exponent.  Digits beyond those
that fit count only by their place. -/
def numberOfParts? (negative : Bool) (whole : List Char) (fraction : Option (List Char))
    (exponent : Option Int) : Option Number :=
  let (m, _, left) := fitting 0 0 whole
  match fraction, exponent with
  | none, none =>
    if !left.isEmpty then scaled? negative m left.length
    else if !negative then some (.integer m)
    else if m = 0 then some (.double (Decimal.Binary64.neg .zero))
    else if m ≤ Nat.pow 2 63 then some (.integer (-(m : Int)))
    else scaled? true m 0
  | fraction, exponent =>
    let (m, used, _) := fitting m 0 (fraction.getD [])
    let shift := exponent.getD 0
    -- an exponent beyond 32 bits leaves zero, or a number out of range
    if Int.pow 2 31 ≤ shift ∧ m ≠ 0 then none
    else if Nat.pow 2 31 ≤ shift.natAbs then some (.double { Decimal.Binary64.zero with negative })
    else scaled? negative m ((left.length : Int) - used + shift)

/-- Reads a number. -/
def number? (cs : List Char) : Option (Number × List Char) := do
  let (negative, cs) := match cs with
    | '-' :: rest => (true, rest)
    | cs => (false, cs)
  let (whole, cs) := Decimal.run cs
  if whole.isEmpty then none
  else if whole.head? = some '0' ∧ 1 < whole.length then none
  else
    let (fraction, cs) ← match cs with
      | '.' :: rest =>
        match Decimal.run rest with
        | ([], _) => none
        | (ds, rest) => some (some ds, rest)
      | cs => some (none, cs)
    let (exponent, cs) ← exponent? cs
    let n ← numberOfParts? negative whole fraction exponent
    pure (n, cs)

/-! ### Values -/

/-- Drops an expected word. -/
def word? : List Char → List Char → Option (List Char)
  | [], cs => some cs
  | _ :: _, [] => none
  | w :: ws, c :: cs => if w = c then word? ws cs else none

mutual

/-- Reads a value after blanks. -/
def value? : Nat → List Char → Option (Json × List Char)
  | 0, _ => none
  | fuel + 1, cs =>
    match skipSpace cs with
    | [] => none
    | '\x22' :: rest => (stringTail? rest).map fun (s, r) => (.string (String.ofList s), r)
    | '[' :: rest =>
      match skipSpace rest with
      | ']' :: rest => some (.array [], rest)
      | rest => (arrayTail? fuel rest).map fun (xs, r) => (.array xs, r)
    | '\x7b' :: rest =>
      match skipSpace rest with
      | '\x7d' :: rest => some (.object [], rest)
      | rest => (objectTail? fuel rest).map fun (ms, r) => (.object ms, r)
    | c :: rest =>
      if c = 'n' then (word? ['u', 'l', 'l'] rest).map (.null, ·)
      else if c = 't' then (word? ['r', 'u', 'e'] rest).map (.bool true, ·)
      else if c = 'f' then (word? ['a', 'l', 's', 'e'] rest).map (.bool false, ·)
      else (number? (c :: rest)).map fun (n, r) => (.number n, r)

/-- Reads the items of an array, at least one, and its closing bracket. -/
def arrayTail? : Nat → List Char → Option (List Json × List Char)
  | 0, _ => none
  | fuel + 1, cs =>
    match value? fuel cs with
    | none => none
    | some (x, rest) =>
      match skipSpace rest with
      | ']' :: rest => some ([x], rest)
      | ',' :: rest => (arrayTail? fuel rest).map fun (xs, r) => (x :: xs, r)
      | _ => none

/-- Reads the members of an object, at least one, and its closing brace. -/
def objectTail? : Nat → List Char → Option (List (String × Json) × List Char)
  | 0, _ => none
  | fuel + 1, cs =>
    match skipSpace cs with
    | '\x22' :: rest =>
      match stringTail? rest with
      | none => none
      | some (name, rest) =>
        match skipSpace rest with
        | ':' :: rest =>
          match value? fuel rest with
          | none => none
          | some (v, rest) =>
            match skipSpace rest with
            | '\x7d' :: rest => some ([(String.ofList name, v)], rest)
            | ',' :: rest =>
              (objectTail? fuel rest).map fun (ms, r) => ((String.ofList name, v) :: ms, r)
            | _ => none
        | _ => none
    | _ => none

end

end Reader

/-- Reads the characters of a text that holds one value. -/
def ofChars? (cs : List Char) : Option Json :=
  match Reader.value? (cs.length + 1) cs with
  | some (j, rest) => if (Reader.skipSpace rest).isEmpty && j.depth ≤ maxDepth then some j else none
  | none => none

/-- Reads a text that holds one value. -/
def read? (text : String) : Option Json := ofChars? text.toList

end RecordAccess.Json
