import RecordAccess.Proofs.Digits
import RecordAccess.Timestamp

/-!
# Timestamps read back

A timestamp of a year with four digits is printed so that it is read back, to the nanosecond and
with leap seconds (`Timestamp.Ordinary.read?_display`).  Any other year is printed with a sign, and
what lies beyond a second that no leap second follows is printed as a part of the next second.
-/

namespace RecordAccess.Text

theorem isBlank_of_isDigit {c : Char} (h : c.isDigit = true) : isBlank c = false := by
  obtain ⟨hlow, hhigh⟩ := Char.isDigit_iff_toNat.1 h
  have hzero : '0'.toNat = 48 := rfl
  have hnine : '9'.toNat = 57 := rfl
  simp only [isBlank, Bool.or_eq_false_iff, Bool.and_eq_false_iff, decide_eq_false_iff_not]
  omega

theorem trimStart_cons {c : Char} (h : isBlank c = false) (cs : List Char) :
    trimStart (c :: cs) = c :: cs := by
  simp [trimStart, h]

end RecordAccess.Text

namespace RecordAccess.Timestamp

open Decimal (padded)

variable {n width : ℕ} {rest : List Char}

/-! ### Fields -/

theorem trimStart_padded (width n : ℕ) (rest : List Char) :
    Text.trimStart (padded width n ++ rest) = padded width n ++ rest := by
  obtain ⟨d, ds, hd⟩ := List.exists_cons_of_ne_nil (Decimal.padded_ne_nil width n)
  have hmem : d ∈ padded width n := by simp [hd]
  have hblank := Text.isBlank_of_isDigit (Decimal.isDigit_of_mem_padded hmem)
  rw [hd, List.cons_append, Text.trimStart_cons hblank]

/-- A field that fills its width is read whatever follows, a digit too. -/
theorem number?_padded (hwidth : 0 < width) (hn : n < 10 ^ width) (rest : List Char) :
    number? width (padded width n ++ rest) = some (n, rest) := by
  have hlength := Decimal.length_padded hwidth hn
  have hleading : Decimal.leading width (padded width n ++ rest) = (padded width n, rest) :=
    Decimal.leading_append (fun _ => Decimal.isDigit_of_mem_padded) (Nat.le_of_eq hlength)
      (.inl hlength)
  rw [number?, trimStart_padded, hleading]
  simp [Decimal.padded_ne_nil, Decimal.value_padded]

theorem mark?_cons {c : Char} (h : Text.isBlank c = false) : mark? c (c :: rest) = some rest := by
  simp [mark?, Text.trimStart_cons h]

theorem year?_yearDigits {year : ℤ} (hlow : 0 ≤ year) (hhigh : year ≤ 9999) (rest : List Char) :
    year? (yearDigits year ++ rest) = some (year, rest) := by
  have hdigits : yearDigits year = padded 4 year.natAbs := by
    simp [yearDigits, hhigh, Int.not_lt.2 hlow]
  have hnumber : number? 4 (padded 4 year.natAbs ++ rest) = some (year.natAbs, rest) :=
    number?_padded (by decide) (by omega) rest
  have hsign : ∀ c : Char, c.isDigit = false → ∀ cs,
      padded 4 year.natAbs ++ rest = c :: cs → False := fun c hc _ =>
    Decimal.append_ne_cons (fun _ => Decimal.isDigit_of_mem_padded) (Decimal.padded_ne_nil _ _) hc
  have hminus := hsign '-' rfl
  have hplus := hsign '+' rfl
  rw [hdigits, year?, trimStart_padded]
  simp only [hnumber, Option.map_some, Option.some.injEq, Prod.mk.injEq, and_true]
  omega

/-! ### Fractions -/

theorem fraction?_padded (hwidth : 0 < width) (hnine : width ≤ 9) (hn : n < 10 ^ width) :
    fraction? ('.' :: padded width n ++ ['Z']) = some (n * 10 ^ (9 - width), ['Z']) := by
  have hlength := Decimal.length_padded hwidth hn
  have hleading : Decimal.leading 9 (padded width n ++ ['Z']) = (padded width n, ['Z']) :=
    Decimal.leading_append (fun _ => Decimal.isDigit_of_mem_padded) (by omega)
      (.inr (Decimal.noDigitHead_cons rfl))
  rw [List.cons_append, fraction?, hleading]
  simp [Decimal.padded_ne_nil, Decimal.value_padded, hlength]

/-- Groups of three digits that are left out are zeros. -/
theorem fraction?_fraction {nano : ℕ} (h : nano < 1000000000) :
    fraction? (fraction nano ++ ['Z']) = some (nano, ['Z']) := by
  unfold fraction
  -- nine digits, or the first six or three of them where the others are zeros
  split_ifs with hzero hmilli hmicro
  case pos =>
    subst hzero
    rfl
  case pos =>
    have hnano : nano / 1000000 * 10 ^ (9 - 3) = nano :=
      Nat.div_mul_cancel (Nat.dvd_of_mod_eq_zero hmilli)
    rw [fraction?_padded (by decide) (by decide) (by omega), hnano]
  case pos =>
    have hnano : nano / 1000 * 10 ^ (9 - 6) = nano :=
      Nat.div_mul_cancel (Nat.dvd_of_mod_eq_zero hmicro)
    rw [fraction?_padded (by decide) (by decide) (by omega), hnano]
  case neg =>
    rw [fraction?_padded (by decide) (by decide) (by omega), Nat.sub_self, Nat.pow_zero,
      Nat.mul_one]

/-! ### Timestamps -/

theorem daysInMonth_cases (year : ℤ) (month : ℕ) :
    Calendar.daysInMonth year month ≤ 31 ∧
      (month ≤ 12 ∨ Calendar.daysInMonth year month = 0) := by
  unfold Calendar.daysInMonth
  split_ifs <;> omega

theorem ofLocal?_self (t : Timestamp) :
    ofLocal? t.year t.month t.day t.hour t.minute t.second t.nano 0 = some t := by
  obtain ⟨-, -, hhour, hminute, -, -⟩ := t.valid
  have htotal : ((60 * t.hour + t.minute : ℕ) : ℤ) - 0 = (60 * t.hour + t.minute : ℕ) := by omega
  have hearly : ¬ ((60 * t.hour + t.minute : ℕ) : ℤ) < 0 := by omega
  have hlate : ¬ 1440 ≤ ((60 * t.hour + t.minute : ℕ) : ℤ) := by omega
  have hday : (((60 * t.hour + t.minute : ℕ) : ℤ) % 1440).toNat = 60 * t.hour + t.minute := by
    omega
  have hclock : (60 * t.hour + t.minute) / 60 = t.hour ∧
      (60 * t.hour + t.minute) % 60 = t.minute := by omega
  simp only [ofLocal?, htotal]
  simp only [hearly, hlate, hday, hclock, t.valid, not_true, if_false, ofFields?, dite_true]
  simp

/-- A moment that a text holds: of a year with four digits, and past the end of a second only in a
leap second, at the end of a minute. -/
structure Ordinary (t : Timestamp) : Prop where
  first : 0 ≤ t.year
  last : t.year ≤ 9999
  leap : 1000000000 ≤ t.nano → t.second = 59

variable {t : Timestamp}

/-- The clock shows a leap second as second 60, and no other second so. -/
theorem Ordinary.ofClock_eq (h : t.Ordinary) :
    ofClock (t.second + t.nano / 1000000000) (t.nano % 1000000000) = (t.second, t.nano) := by
  obtain ⟨-, -, -, -, hsecond, hnano⟩ := t.valid
  have hleap := h.leap
  unfold ofClock
  split_ifs with hsixty <;> simp only [Prod.mk.injEq] <;> omega

theorem Ordinary.ofChars?_chars (h : t.Ordinary) : ofChars? t.chars = some t := by
  obtain ⟨-, ⟨hfirst, hlast⟩, hhour, hminute, hsecond, hnano⟩ := t.valid
  obtain ⟨hdays, hmonth⟩ := daysInMonth_cases t.year t.month
  have hdash : ∀ cs, mark? '-' ('-' :: cs) = some cs := fun _ => mark?_cons rfl
  have hcolon : ∀ cs, mark? ':' (':' :: cs) = some cs := fun _ => mark?_cons rfl
  have htwo : ∀ n < 100, ∀ cs, number? 2 (padded 2 n ++ cs) = some (n, cs) := fun n hn =>
    number?_padded (by decide) hn
  have hzone : offset? (Text.trimStart ['Z']) = some (0, []) := rfl
  have hend : Text.trimStart [] = [] := rfl
  have hclock := htwo (t.second + t.nano / 1000000000) (by omega)
  have hfraction : t.nano % 1000000000 < 1000000000 := Nat.mod_lt _ (by decide)
  simp [ofChars?, chars, year?_yearDigits h.first h.last, hdash, hcolon, htwo t.month (by omega),
    htwo t.day (by omega), htwo t.hour (by omega), htwo t.minute (by omega), hclock,
    fraction?_fraction hfraction, h.ofClock_eq, hzone, hend, ofLocal?_self]

/-- **An ordinary timestamp is read back from its text.** -/
theorem Ordinary.read?_display (h : t.Ordinary) : read? t.display = some t := by
  rw [read?, display, String.toList_ofList, h.ofChars?_chars]

/-- What a text form of moments promises. -/
class LawfulTextForm [TextForm] : Prop where
  read?_display : ∀ {t : Timestamp}, t.Ordinary → TextForm.read? (TextForm.display t) = some t

instance : LawfulTextForm := ⟨fun h => h.read?_display⟩

end RecordAccess.Timestamp
