import Mathlib.Algebra.Ring.Int.Defs
import RecordAccess.Json.Printer
import RecordAccess.Json.Reader
import RecordAccess.Proofs.Digits

/-!
# Strings and numbers of JSON text

What the printer writes for a string or for an integer of at most 64 bits is read back
(`Reader.stringTail?_quoted`, `Reader.number?_intText`).  A string ends at its closing quote; a
number goes on as far as it can, so what follows it must not go on with it (`Reader.Ended`).
-/

namespace RecordAccess.Json.Reader

open Decimal (written)

variable {c e : Char} {cs rest : List Char}

/-! ### Strings -/

theorem hexValue?_hexDigit : ∀ {n : ℕ}, n < 16 → hexValue? (hexDigit n) = some n := by
  decide

theorem stringTail?_letter (he : simpleEscape? e = some c) (hu : e ≠ 'u') :
    stringTail? ('\\' :: e :: cs) = (stringTail? cs).map fun (s, r) => (c :: s, r) := by
  rw [stringTail?]
  · simp only [he]
  · intros
    exact absurd ‹_› hu

/-- A control character is read from its code; no such code is a surrogate. -/
theorem stringTail?_control (hc : c.toNat < 32) :
    stringTail? ('\\' :: 'u' :: '0' :: '0' :: hexDigit (c.toNat / 16) ::
      hexDigit (c.toNat % 16) :: cs) = (stringTail? cs).map fun (s, r) => (c :: s, r) := by
  have hzero : hexValue? '0' = some 0 := rfl
  have hupper := hexValue?_hexDigit (n := c.toNat / 16) (by omega)
  have hlower := hexValue?_hexDigit (n := c.toNat % 16) (by omega)
  have hcode : hex4? '0' '0' (hexDigit (c.toNat / 16)) (hexDigit (c.toNat % 16)) =
      some c.toNat := by
    simp only [hex4?, hzero, hupper, hlower, Option.bind_eq_bind, Option.bind_some,
      Option.pure_def, Option.some.injEq]
    omega
  have hhigh : ¬ (0xD800 ≤ c.toNat ∧ c.toNat < 0xDC00) := by omega
  have hlow : ¬ (0xDC00 ≤ c.toNat ∧ c.toNat < 0xE000) := by omega
  rw [stringTail?, hcode]
  simp only [hhigh, hlow, if_false, Char.ofNat_toNat]

theorem stringTail?_plain (hquote : c ≠ '\x22') (hslash : c ≠ '\\') (hc : ¬ c.toNat < 32) :
    stringTail? (c :: cs) = (stringTail? cs).map fun (s, r) => (c :: s, r) := by
  rw [stringTail?]
  · simp only [hslash, hc, if_false]
  · exact hquote
  all_goals
    intros
    exact absurd ‹_› hslash

theorem stringTail?_escape (c : Char) (cs : List Char) :
    stringTail? (escape c ++ cs) = (stringTail? cs).map fun (s, r) => (c :: s, r) := by
  unfold escape
  split_ifs with hquote hslash hn hr ht hb hf hcontrol
  case _ => subst hquote; exact stringTail?_letter rfl (by decide)
  case _ => subst hslash; exact stringTail?_letter rfl (by decide)
  case _ => subst hn; exact stringTail?_letter rfl (by decide)
  case _ => subst hr; exact stringTail?_letter rfl (by decide)
  case _ => subst ht; exact stringTail?_letter rfl (by decide)
  case _ => subst hb; exact stringTail?_letter rfl (by decide)
  case _ => subst hf; exact stringTail?_letter rfl (by decide)
  case _ => exact stringTail?_control hcontrol
  case _ => exact stringTail?_plain hquote hslash hcontrol

/-- A string is read up to its closing quote. -/
theorem stringTail?_quoted (t rest : List Char) :
    stringTail? (t.flatMap escape ++ '\x22' :: rest) = some (t, rest) := by
  induction t with
  | nil => rfl
  | cons c t ih => simp [stringTail?_escape, ih]

/-! ### Numbers -/

/-- No number goes on into a text. -/
def Ended (rest : List Char) : Prop :=
  ∀ c ∈ rest.head?, c.isDigit = false ∧ c ≠ '.' ∧ c ≠ 'e' ∧ c ≠ 'E'

theorem ended_nil : Ended [] := by
  rintro _ ⟨⟩

theorem ended_cons (h : c.isDigit = false ∧ c ≠ '.' ∧ c ≠ 'e' ∧ c ≠ 'E') :
    Ended (c :: rest) := by
  rintro _ ⟨⟩
  exact h

theorem exponent?_ended (h : Ended rest) : exponent? rest = some (none, rest) := by
  cases rest with
  | nil => rfl
  | cons c rest =>
    obtain ⟨-, -, he, hE⟩ := h c rfl
    simp [exponent?, he, hE]

/-- The digits of a number, with or without a sign, are read up to their end. -/
theorem number?_written (negative : Bool) (n : ℕ) (h : Ended rest) :
    number? ((if negative then ['-'] else []) ++ written n ++ rest) =
      (numberOfParts? negative (written n) none none).map fun m => (m, rest) := by
  have hrun : Decimal.run (written n ++ rest) = (written n, rest) :=
    Decimal.run_append (fun _ => Decimal.isDigit_of_mem_written) fun c hc => (h c hc).1
  have hlead : ¬ ((written n).head? = some '0' ∧ 1 < (written n).length) := fun ⟨hzero, hlong⟩ =>
    absurd (Decimal.length_written_le_one hzero) (not_le.2 hlong)
  -- the next two say which way the reader goes at the sign and at the point
  have hsign : ∀ cs, written n ++ rest = '-' :: cs → False := fun _ =>
    Decimal.append_ne_cons (fun _ => Decimal.isDigit_of_mem_written) (Decimal.written_ne_nil n) rfl
  have hpoint : ∀ cs, rest = '.' :: cs → False := by
    rintro cs rfl
    exact (h _ rfl).2.1 rfl
  have hexponent := exponent?_ended h
  unfold number?
  cases negative <;> simp [hrun, hlead, hexponent, Decimal.written_ne_nil] <;>
    cases numberOfParts? _ (written n) none none <;> rfl

theorem fitting_eq (ds : List Char) {acc : ℕ} (taken : ℕ)
    (h : Nat.ofDigitChars 10 ds acc ≤ maxUnsigned) :
    fitting acc taken ds = (Nat.ofDigitChars 10 ds acc, taken + ds.length, []) := by
  induction ds generalizing acc taken with
  | nil => rfl
  | cons d ds ih =>
    have hnext : Nat.ofDigitChars 10 (d :: ds) acc =
        Nat.ofDigitChars 10 ds (10 * acc + Decimal.digitValue d) := Nat.ofDigitChars_cons
    rw [hnext] at h ⊢
    have hle : 10 * acc + Decimal.digitValue d ≤ maxUnsigned :=
      le_trans (Decimal.le_ofDigitChars ds _) h
    simp only [fitting, hle, if_true]
    rw [ih _ h, List.length_cons, Nat.add_assoc, Nat.add_comm 1]

theorem fitting_written {n : ℕ} (hn : n ≤ maxUnsigned) :
    fitting 0 0 (written n) = (n, (written n).length, []) := by
  have hvalue : Nat.ofDigitChars 10 (written n) 0 = n := Nat.ofDigitChars_ten_toDigits
  rw [fitting_eq (written n) 0 (by rwa [hvalue]), hvalue, Nat.zero_add]

/-- An integer of at most 64 bits, with or without a sign, is read as that integer. -/
theorem number?_intText {i : ℤ} (hlow : -2 ^ 63 ≤ i) (hhigh : i < 2 ^ 64) (h : Ended rest) :
    number? ((Decimal.intText i).toList ++ rest) = some (.integer i, rest) := by
  have hbound : maxUnsigned = 2 ^ 64 - 1 := rfl
  -- only the sign of the integer decides which bound its digits have to meet
  cases i with
  | ofNat n =>
    have htext : (Decimal.intText (.ofNat n)).toList = [] ++ written n := String.toList_ofList
    have hfits : fitting 0 0 (written n) = (n, (written n).length, []) := by
      refine fitting_written ?_
      rw [Int.ofNat_eq_natCast] at hhigh
      omega
    rw [htext]
    refine (number?_written false n h).trans ?_
    simp [numberOfParts?, hfits]
  | negSucc n =>
    have htext : (Decimal.intText (.negSucc n)).toList = ['-'] ++ written (n + 1) := by
      simp [Decimal.intText, Decimal.text]
    have hfits := fitting_written (n := n + 1) (by omega)
    have hsmall : n + 1 ≤ Nat.pow 2 63 := by
      show n + 1 ≤ 2 ^ 63
      omega
    rw [htext]
    refine (number?_written true (n + 1) h).trans ?_
    simp only [numberOfParts?, hfits, List.isEmpty_nil, Bool.not_true, Bool.false_eq_true,
      if_false, Nat.add_one_ne_zero, hsmall, if_true, Option.map_some]
    rfl

end RecordAccess.Json.Reader
