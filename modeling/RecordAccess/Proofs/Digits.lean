import Mathlib.Algebra.Ring.Nat
import Mathlib.Data.List.Basic
import RecordAccess.Decimal.Digits

/-!
# Digits read back

A number is read back from its digits: `value` inverts `written` and `padded`, and `run` and
`leading` split off the front of a text exactly the digits that stand there.
-/

namespace RecordAccess.Decimal

variable {n width : ℕ} {ds rest : List Char}

/-! ### Runs -/

/-- No digit comes first. -/
def NoDigitHead (rest : List Char) : Prop := ∀ c ∈ rest.head?, c.isDigit = false

theorem noDigitHead_cons {c : Char} (h : c.isDigit = false) : NoDigitHead (c :: rest) := by
  rintro _ ⟨⟩
  exact h

theorem run_append (hds : ∀ d ∈ ds, d.isDigit = true) (hrest : NoDigitHead rest) :
    run (ds ++ rest) = (ds, rest) := by
  have hnone : rest.takeWhile Char.isDigit = [] ∧ rest.dropWhile Char.isDigit = rest := by
    cases rest with
    | nil => exact ⟨rfl, rfl⟩
    | cons c rest => simp [hrest c rfl]
  simp [run, List.takeWhile_append_of_pos hds, List.dropWhile_append_of_pos hds, hnone]

theorem leading_append {limit : ℕ} (hds : ∀ d ∈ ds, d.isDigit = true) (hlimit : ds.length ≤ limit)
    (hrest : ds.length = limit ∨ NoDigitHead rest) : leading limit (ds ++ rest) = (ds, rest) := by
  -- the limit goes down with the digits that are taken
  induction ds generalizing limit with
  | nil =>
    cases limit with
    | zero => rfl
    | succ limit =>
      have hnone : NoDigitHead rest := hrest.resolve_left (by simp)
      cases rest with
      | nil => rfl
      | cons c rest => simp [leading, hnone c rfl]
  | cons d ds ih =>
    cases limit with
    | zero => cases hlimit
    | succ limit =>
      have hd : d.isDigit = true := hds d List.mem_cons_self
      have hrec := ih (fun c hc => hds c (List.mem_cons_of_mem d hc))
        (Nat.le_of_succ_le_succ hlimit) (hrest.imp_left Nat.succ.inj)
      simp [leading, hd, hrec]

theorem append_ne_cons {c : Char} {cs : List Char} (hds : ∀ d ∈ ds, d.isDigit = true)
    (hne : ds ≠ []) (hc : c.isDigit = false) : ds ++ rest ≠ c :: cs := by
  obtain ⟨d, ds, rfl⟩ := List.exists_cons_of_ne_nil hne
  have hd : d.isDigit = true := hds d List.mem_cons_self
  intro h
  cases h
  rw [hc] at hd
  cases hd

/-! ### Without leading zeros -/

theorem value_eq_ofDigitChars : value ds = Nat.ofDigitChars 10 ds 0 :=
  Nat.ofDigitChars_eq_foldl.symm

theorem le_ofDigitChars (ds : List Char) (start : ℕ) : start ≤ Nat.ofDigitChars 10 ds start := by
  rw [Nat.ofDigitChars_eq_ofDigitChars_zero]
  calc
    start ≤ 10 ^ ds.length * start := Nat.le_mul_of_pos_left _ (Nat.pow_pos (by decide))
    _ ≤ _ := Nat.le_add_right _ _

theorem value_written (n : ℕ) : value (written n) = n :=
  value_eq_ofDigitChars.trans Nat.ofDigitChars_ten_toDigits

theorem written_ne_nil (n : ℕ) : written n ≠ [] := Nat.toDigits_ne_nil

theorem isDigit_of_mem_written {d : Char} (h : d ∈ written n) : d.isDigit = true :=
  Nat.isDigit_of_mem_toDigits (by decide) (Nat.le_refl 10) h

theorem head?_written_ne_zero (hn : 0 < n) : (written n).head? ≠ some '0' := by
  induction n using Nat.strongRecOn with
  | ind n ih =>
    by_cases hsmall : n < 10
    · have hone : written n = [n.digitChar] := Nat.toDigits_of_lt_base hsmall
      simp only [hone, List.head?_cons, ne_eq, Option.some.injEq, Nat.digitChar_eq_zero]
      omega
    · have hmore : written n = written (n / 10) ++ [(n % 10).digitChar] :=
        Nat.toDigits_of_base_le (by decide) (not_lt.1 hsmall)
      rw [hmore, List.head?_append_of_ne_nil _ (written_ne_nil _)]
      exact ih (n / 10) (by omega) (by omega)

theorem length_written_le_one (h : (written n).head? = some '0') : (written n).length ≤ 1 := by
  have hn : n = 0 := by
    by_contra hne
    exact head?_written_ne_zero (Nat.pos_of_ne_zero hne) h
  subst hn
  exact le_of_eq (congrArg List.length (Nat.toDigits_zero 10))

/-! ### Filled with zeros -/

theorem value_padded (width n : ℕ) : value (padded width n) = n := by
  rw [value_eq_ofDigitChars, padded, Nat.ofDigitChars_append, Nat.ofDigitChars_replicate_zero,
    Nat.mul_zero]
  exact Nat.ofDigitChars_ten_toDigits

theorem padded_ne_nil (width n : ℕ) : padded width n ≠ [] := by
  simp [padded, written_ne_nil]

theorem isDigit_of_mem_padded {d : Char} (h : d ∈ padded width n) : d.isDigit = true := by
  rcases List.mem_append.1 h with h | h
  · rw [List.eq_of_mem_replicate h]
    rfl
  · exact isDigit_of_mem_written h

/-- A number below `10 ^ width` fills the width exactly. -/
theorem length_padded (hwidth : 0 < width) (hn : n < 10 ^ width) :
    (padded width n).length = width := by
  have hle : (written n).length ≤ width :=
    (Nat.length_toDigits_le_iff (by decide) hwidth).2 hn
  rw [padded, List.length_append, List.length_replicate]
  omega

end RecordAccess.Decimal
