import RecordAccess.Proofs.Json.Tokens

/-!
# Texts of JSON values

`Json.Spells` relates a value to its texts, with blanks in front of any token.  Doubles have no text
here: their decimals are not read back exactly.

A text of a value is read as that value (`Spells.ofChars?_eq`).  The reader spends one unit of fuel
on each value, item and member, so one unit more reads texts that are one character longer
(`Reader.reads`).
-/

namespace RecordAccess.Json

/-- Blanks alone. -/
def Blank (gap : List Char) : Prop := ∀ c ∈ gap, Reader.isSpace c = true

theorem blank_nil : Blank [] := by
  rintro _ ⟨⟩

mutual

/-- The texts of a value, without blanks around them. -/
inductive Spells : Json → List Char → Prop
  | null : Spells .null ['n', 'u', 'l', 'l']
  | true : Spells (.bool true) ['t', 'r', 'u', 'e']
  | false : Spells (.bool false) ['f', 'a', 'l', 's', 'e']
  | integer {i : ℤ} (hlow : -2 ^ 63 ≤ i) (hhigh : i < 2 ^ 64) :
    Spells (.number (.integer i)) (Decimal.intText i).toList
  | string (t : String) : Spells (.string t) (quoted t)
  | noItems {gap : List Char} (hgap : Blank gap) : Spells (.array []) ('[' :: gap ++ [']'])
  | array {items : List Json} {cs : List Char} (h : SpellsItems items cs) :
    Spells (.array items) ('[' :: cs)
  | noMembers {gap : List Char} (hgap : Blank gap) :
    Spells (.object []) ('\x7b' :: gap ++ ['\x7d'])
  | object {members : List (String × Json)} {cs : List Char} (h : SpellsMembers members cs) :
    Spells (.object members) ('\x7b' :: cs)

/-- The texts of the items of an array, at least one, with the bracket behind them. -/
inductive SpellsItems : List Json → List Char → Prop
  | last {item : Json} {before cs after : List Char} (hbefore : Blank before)
    (h : Spells item cs) (hafter : Blank after) :
    SpellsItems [item] (before ++ cs ++ after ++ [']'])
  | more {item : Json} {items : List Json} {before cs after ds : List Char}
    (hbefore : Blank before) (h : Spells item cs) (hafter : Blank after)
    (hs : SpellsItems items ds) :
    SpellsItems (item :: items) (before ++ cs ++ after ++ ',' :: ds)

/-- The texts of the members of an object, at least one, with the brace behind them. -/
inductive SpellsMembers : List (String × Json) → List Char → Prop
  | last (name : String) {value : Json} {before colon gap cs after : List Char}
    (hbefore : Blank before) (hcolon : Blank colon) (hgap : Blank gap) (h : Spells value cs)
    (hafter : Blank after) :
    SpellsMembers [(name, value)]
      (before ++ quoted name ++ colon ++ ':' :: gap ++ cs ++ after ++ ['\x7d'])
  | more (name : String) {value : Json} {members : List (String × Json)}
    {before colon gap cs after ds : List Char}
    (hbefore : Blank before) (hcolon : Blank colon) (hgap : Blank gap) (h : Spells value cs)
    (hafter : Blank after) (hs : SpellsMembers members ds) :
    SpellsMembers ((name, value) :: members)
      (before ++ quoted name ++ colon ++ ':' :: gap ++ cs ++ after ++ ',' :: ds)

end

variable {j : Json} {gap cs rest : List Char} {c : Char} {fuel : ℕ}

namespace Reader

/-! ### Blanks -/

theorem skipSpace_append (h : Blank gap) (cs : List Char) :
    skipSpace (gap ++ cs) = skipSpace cs :=
  List.dropWhile_append_of_pos h

theorem skipSpace_blank (h : Blank gap) : skipSpace gap = [] := by
  have hnil := skipSpace_append h []
  rwa [List.append_nil] at hnil

theorem skipSpace_cons (h : isSpace c = false) (cs : List Char) :
    skipSpace (c :: cs) = c :: cs := by
  simp [skipSpace, h]

@[simp]
theorem skipSpace_skipSpace (cs : List Char) : skipSpace (skipSpace cs) = skipSpace cs := by
  induction cs with
  | nil => rfl
  | cons c cs ih =>
    cases hc : isSpace c with
    | true => simpa [skipSpace, hc] using ih
    | false => simp [skipSpace, hc]

theorem ended_append (hgap : Blank gap) (h : Ended rest) : Ended (gap ++ rest) := by
  cases gap with
  | nil => exact h
  | cons c gap =>
    have hc := hgap c List.mem_cons_self
    refine ended_cons ?_
    simp only [isSpace, Bool.or_eq_true, decide_eq_true_eq] at hc
    rcases hc with ((rfl | rfl) | rfl) | rfl <;> decide

theorem value?_skipSpace (fuel : ℕ) (cs : List Char) :
    value? fuel (skipSpace cs) = value? fuel cs := by
  cases fuel with
  | zero => rfl
  | succ fuel => rw [value?, value?, skipSpace_skipSpace]

theorem arrayTail?_skipSpace (fuel : ℕ) (cs : List Char) :
    arrayTail? fuel (skipSpace cs) = arrayTail? fuel cs := by
  cases fuel with
  | zero => rfl
  | succ fuel => rw [arrayTail?, arrayTail?, value?_skipSpace]

theorem objectTail?_skipSpace (fuel : ℕ) (cs : List Char) :
    objectTail? fuel (skipSpace cs) = objectTail? fuel cs := by
  cases fuel with
  | zero => rfl
  | succ fuel => rw [objectTail?, objectTail?, skipSpace_skipSpace]

theorem value?_append (h : Blank gap) (fuel : ℕ) (cs : List Char) :
    value? fuel (gap ++ cs) = value? fuel cs := by
  rw [← value?_skipSpace, skipSpace_append h, value?_skipSpace]

/-! ### Single tokens -/

theorem value?_quoted (t : String) (rest : List Char) :
    value? (fuel + 1) (quoted t ++ rest) = some (.string t, rest) := by
  have hquoted : quoted t ++ rest = '\x22' :: (t.toList.flatMap escape ++ '\x22' :: rest) := by
    simp [quoted]
  rw [hquoted, value?, skipSpace_cons rfl]
  simp [stringTail?_quoted]

theorem value?_number (hc : c = '-' ∨ c.isDigit = true) :
    value? (fuel + 1) (c :: cs) = (number? (c :: cs)).map fun (n, r) => (.number n, r) := by
  have hother : ∀ d : Char, d ≠ '-' ∧ d.isDigit = false → c = d → False := by
    rintro d ⟨hminus, hdigit⟩ rfl
    rcases hc with hc | hc
    · exact hminus hc
    · rw [hdigit] at hc
      cases hc
  have hspace : isSpace c = false := by
    simp only [isSpace, Bool.or_eq_false_iff, decide_eq_false_iff_not]
    exact ⟨⟨⟨hother _ (by decide), hother _ (by decide)⟩, hother _ (by decide)⟩,
      hother _ (by decide)⟩
  -- the first three are not used by name: they rule out the other ways to go
  have hquote := hother '\x22' (by decide)
  have hbracket := hother '[' (by decide)
  have hbrace := hother '\x7b' (by decide)
  have hn : c ≠ 'n' := hother 'n' (by decide)
  have ht : c ≠ 't' := hother 't' (by decide)
  have hf : c ≠ 'f' := hother 'f' (by decide)
  rw [value?, skipSpace_cons hspace]
  simp only [hn, ht, hf, if_false]

theorem value?_intText {i : ℤ} (hlow : -2 ^ 63 ≤ i) (hhigh : i < 2 ^ 64) (h : Ended rest) :
    value? (fuel + 1) ((Decimal.intText i).toList ++ rest) =
      some (.number (.integer i), rest) := by
  have hnumber := number?_intText hlow hhigh h
  obtain ⟨c, cs, hcs, hc⟩ : ∃ c cs, (Decimal.intText i).toList = c :: cs ∧
      (c = '-' ∨ c.isDigit = true) := by
    cases i with
    | ofNat n =>
      obtain ⟨d, ds, hd⟩ := List.exists_cons_of_ne_nil (Decimal.written_ne_nil n)
      have hmem : d ∈ Decimal.written n := by simp [hd]
      exact ⟨d, ds, String.toList_ofList.trans hd, .inr (Decimal.isDigit_of_mem_written hmem)⟩
    | negSucc n => exact ⟨'-', Decimal.written (n + 1), by simp [Decimal.intText, Decimal.text],
        .inl rfl⟩
  rw [hcs, List.cons_append] at hnumber ⊢
  rw [value?_number hc, hnumber]
  rfl

/-! ### Values, items and members -/

/-- With a fuel, values are read from their shorter texts. -/
def ReadsValues (fuel : ℕ) : Prop :=
  ∀ {j : Json} {cs : List Char}, Spells j cs → cs.length < fuel → ∀ {rest}, Ended rest →
    value? fuel (cs ++ rest) = some (j, rest)

/-- With a fuel, items are read from their shorter texts. -/
def ReadsItems (fuel : ℕ) : Prop :=
  ∀ {items : List Json} {cs : List Char}, SpellsItems items cs → cs.length < fuel → ∀ rest,
    arrayTail? fuel (cs ++ rest) = some (items, rest)

/-- With a fuel, members are read from their shorter texts. -/
def ReadsMembers (fuel : ℕ) : Prop :=
  ∀ {members : List (String × Json)} {cs : List Char}, SpellsMembers members cs →
    cs.length < fuel → ∀ rest, objectTail? fuel (cs ++ rest) = some (members, rest)

theorem ReadsValues.succ (hitems : ReadsItems fuel) (hmembers : ReadsMembers fuel) :
    ReadsValues (fuel + 1) := by
  intro j cs h hfuel rest hrest
  cases h with
  | null => rfl
  | true => rfl
  | false => rfl
  | integer hlow hhigh => exact value?_intText hlow hhigh hrest
  | string t => exact value?_quoted t rest
  | noItems hgap =>
    simp [value?, skipSpace_cons, isSpace, skipSpace_append hgap]
  | @array items cs h =>
    have htail := hitems h (Nat.lt_of_succ_lt_succ hfuel) rest
    -- no item begins with the bracket that ends an empty array
    have hitem : ∀ ds, skipSpace (cs ++ rest) = ']' :: ds → False := by
      intro ds hds
      rw [← arrayTail?_skipSpace, hds] at htail
      rcases fuel with _ | _ | fuel <;> cases htail
    simp [value?, skipSpace_cons, isSpace, arrayTail?_skipSpace, htail]
  | noMembers hgap =>
    simp [value?, skipSpace_cons, isSpace, skipSpace_append hgap]
  | @object members cs h =>
    have htail := hmembers h (Nat.lt_of_succ_lt_succ hfuel) rest
    have hname : ∀ ds, skipSpace (cs ++ rest) = '\x7d' :: ds → False := by
      intro ds hds
      rw [← objectTail?_skipSpace, hds] at htail
      rcases fuel with _ | fuel <;> cases htail
    simp [value?, skipSpace_cons, isSpace, objectTail?_skipSpace, htail]

theorem ReadsItems.succ (hvalues : ReadsValues fuel) (hitems : ReadsItems fuel) :
    ReadsItems (fuel + 1) := by
  intro items cs h hfuel rest
  -- an item ends before the comma or the bracket that follows
  cases h with
  | @last item before cs after hbefore h hafter =>
    have hended : Ended (after ++ ']' :: rest) := ended_append hafter (ended_cons (by decide))
    simp only [List.length_append, List.length_cons] at hfuel
    have hitem := hvalues h (by omega) hended
    simp [arrayTail?, value?_append hbefore, hitem, skipSpace_append hafter, skipSpace_cons,
      isSpace]
  | @more item items before cs after ds hbefore h hafter hs =>
    have hended : Ended (after ++ ',' :: (ds ++ rest)) :=
      ended_append hafter (ended_cons (by decide))
    simp only [List.length_append, List.length_cons] at hfuel
    have hitem := hvalues h (by omega) hended
    have hothers := hitems hs (by omega) rest
    simp [arrayTail?, value?_append hbefore, hitem, skipSpace_append hafter, skipSpace_cons,
      isSpace, hothers]

theorem ReadsMembers.succ (hvalues : ReadsValues fuel) (hmembers : ReadsMembers fuel) :
    ReadsMembers (fuel + 1) := by
  intro members cs h hfuel rest
  -- as for items, with a name and a colon in front of each value
  cases h with
  | @last name value before colon gap cs after hbefore hcolon hgap h hafter =>
    have hended : Ended (after ++ '\x7d' :: rest) := ended_append hafter (ended_cons (by decide))
    simp only [List.length_append, List.length_cons] at hfuel
    have hvalue := hvalues h (by omega) hended
    simp [objectTail?, skipSpace_append hbefore, quoted, skipSpace_cons, isSpace,
      stringTail?_quoted, skipSpace_append hcolon, value?_append hgap, hvalue,
      skipSpace_append hafter]
  | @more name value members before colon gap cs after ds hbefore hcolon hgap h hafter hs =>
    have hended : Ended (after ++ ',' :: (ds ++ rest)) :=
      ended_append hafter (ended_cons (by decide))
    simp only [List.length_append, List.length_cons] at hfuel
    have hvalue := hvalues h (by omega) hended
    have hothers := hmembers hs (by omega) rest
    simp [objectTail?, skipSpace_append hbefore, quoted, skipSpace_cons, isSpace,
      stringTail?_quoted, skipSpace_append hcolon, value?_append hgap, hvalue,
      skipSpace_append hafter, hothers]

theorem reads (fuel : ℕ) : ReadsValues fuel ∧ ReadsItems fuel ∧ ReadsMembers fuel := by
  induction fuel with
  | zero =>
    refine ⟨?_, ?_, ?_⟩ <;> exact fun _ hfuel => absurd hfuel (Nat.not_lt_zero _)
  | succ fuel ih =>
    obtain ⟨hvalues, hitems, hmembers⟩ := ih
    exact ⟨ReadsValues.succ hitems hmembers, ReadsItems.succ hvalues hitems,
      ReadsMembers.succ hvalues hmembers⟩

end Reader

/-- **A text of a value is read as that value**, with blanks around it or not. -/
theorem Spells.ofChars?_eq {before after : List Char} (h : Spells j cs)
    (hdepth : j.depth ≤ maxDepth) (hbefore : Blank before) (hafter : Blank after) :
    ofChars? (before ++ cs ++ after) = some j := by
  have hended : Reader.Ended after := by
    have hnil := Reader.ended_append hafter Reader.ended_nil
    rwa [List.append_nil] at hnil
  have hread : Reader.value? ((before ++ cs ++ after).length + 1) (before ++ cs ++ after) =
      some (j, after) := by
    have hfuel : cs.length < (before ++ cs ++ after).length + 1 := by
      simp only [List.length_append]
      omega
    rw [List.append_assoc before, Reader.value?_append hbefore, ← List.append_assoc]
    exact (Reader.reads _).1 h hfuel hended
  rw [ofChars?, hread]
  simp [Reader.skipSpace_blank hafter, hdepth]

end RecordAccess.Json
