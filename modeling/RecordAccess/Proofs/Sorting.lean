import Mathlib.Data.List.Perm.Basic
import Mathlib.Data.String.Basic
import Mathlib.Tactic.SplitIfs
import RecordAccess.Filter.Predicate
import RecordAccess.Subject

/-!
# Sorted lists

A strictly increasing list is determined by its members, so what is kept sorted depends only on what
it is made from as a set (`SameMembers`): groups, users and the values of clauses.  Texts are sorted
by code point, and that is the order of their bytes (`Text.bytes_lt`).

A stable sort commutes with leaving out entries (`filter_mergeSort`).
-/

namespace RecordAccess

variable {α : Type}

/-! ### Lists with the same members -/

/-- Two lists have the same members, in whatever order and however often. -/
def SameMembers (as bs : List α) : Prop := ∀ a, a ∈ as ↔ a ∈ bs

namespace SameMembers

variable {as as' bs bs' : List α}

protected theorem refl (as : List α) : SameMembers as as := fun _ => Iff.rfl

theorem map {β : Type} (h : SameMembers as bs) (f : α → β) :
    SameMembers (as.map f) (bs.map f) := by
  intro b
  simp only [List.mem_map, h _]

theorem filterMap {β : Type} (h : SameMembers as bs) (f : α → Option β) :
    SameMembers (as.filterMap f) (bs.filterMap f) := by
  intro b
  simp only [List.mem_filterMap, h _]

theorem filter (h : SameMembers as bs) (p : α → Bool) :
    SameMembers (as.filter p) (bs.filter p) := by
  intro a
  simp only [List.mem_filter, h a]

theorem append (h : SameMembers as bs) (h' : SameMembers as' bs') :
    SameMembers (as ++ as') (bs ++ bs') := by
  intro a
  simp only [List.mem_append, h a, h' a]

theorem isEmpty_eq (h : SameMembers as bs) : as.isEmpty = bs.isEmpty := by
  rw [Bool.eq_iff_iff, List.isEmpty_iff, List.isEmpty_iff, List.eq_nil_iff_forall_not_mem,
    List.eq_nil_iff_forall_not_mem]
  exact forall_congr' fun a => not_congr (h a)

end SameMembers

/-! ### Sets of texts -/

namespace Text

theorem pairwise_sortedInsert {t : String} {us : List String} (h : us.Pairwise (· < ·)) :
    (sortedInsert t us).Pairwise (· < ·) := by
  -- the text goes in front of the first one that is not before it
  induction us with
  | nil => exact List.pairwise_singleton _ t
  | cons u us ih =>
    have hu := List.pairwise_cons.1 h
    unfold sortedInsert
    split
    · exact h
    · rename_i hne
      split
      · rename_i hlt
        refine List.pairwise_cons.2 ⟨fun x hx => ?_, h⟩
        rcases List.mem_cons.1 hx with rfl | hx
        · exact hlt
        · exact hlt.trans (hu.1 x hx)
      · rename_i hlt
        refine List.pairwise_cons.2 ⟨fun x hx => ?_, ih hu.2⟩
        rcases mem_sortedInsert.1 hx with rfl | hx
        · exact lt_of_le_of_ne (not_lt.1 hlt) (Ne.symm hne)
        · exact hu.1 x hx

theorem pairwise_sortedSet (ts : List String) : (sortedSet ts).Pairwise (· < ·) := by
  induction ts with
  | nil => exact List.Pairwise.nil
  | cons t ts ih => exact pairwise_sortedInsert ih

/-- **A sorted set depends only on the members** of the list it is made from. -/
theorem sortedSet_congr {ts us : List String} (h : SameMembers ts us) :
    sortedSet ts = sortedSet us := by
  have hts := pairwise_sortedSet ts
  have hus := pairwise_sortedSet us
  have hperm : (sortedSet ts).Perm (sortedSet us) := by
    rw [List.perm_ext_iff_of_nodup (hts.imp ne_of_lt) (hus.imp ne_of_lt)]
    intro t
    rw [mem_sortedSet, mem_sortedSet, h t]
  exact hperm.eq_of_pairwise (fun _ _ _ _ hlt hgt => absurd hgt hlt.asymm) hts hus

/-! ### Bytes of texts -/

/-- The bytes of a text in UTF-8. -/
def bytes (t : String) : List UInt8 := t.toByteArray.data.toList

theorem bytes_eq_flatMap (t : String) : bytes t = t.toList.flatMap String.utf8EncodeChar := by
  rw [bytes, ← String.utf8Encode_toList]
  simp [List.utf8Encode]

theorem cons_ofNat_lt {a b : ℕ} {more more' : List UInt8} (hle : a ≤ b) (hb : b < 256)
    (h : a = b → more < more') : UInt8.ofNat a :: more < UInt8.ofNat b :: more' := by
  rw [List.cons_lt_cons_iff, UInt8.lt_iff_toNat_lt, UInt8.toNat_ofNat_of_lt' (hle.trans_lt hb),
    UInt8.toNat_ofNat_of_lt' hb]
  rcases hle.eq_or_lt with rfl | hlt
  · exact .inr ⟨rfl, h rfl⟩
  · exact .inl hlt

theorem utf8EncodeChar_append_lt {c d : Char} (h : c < d) (more more' : List UInt8) :
    String.utf8EncodeChar c ++ more < String.utf8EncodeChar d ++ more' := by
  have hcd : c.val.toNat < d.val.toNat := h
  have hd : d.val.toNat < 0x110000 := by
    rcases d.valid with h | h
    · exact h.trans (by decide)
    · exact h.2
  unfold String.utf8EncodeChar
  generalize c.val.toNat = v at hcd
  generalize d.val.toNat = w at hcd hd
  dsimp only
  -- a character with more bytes has a greater first byte; with as many, some byte is the first to
  -- differ
  split_ifs <;> simp only [List.cons_append, List.nil_append] <;>
    repeat refine cons_ofNat_lt (by omega) (by omega) fun _ => ?_
  all_goals omega

/-- **An earlier text has earlier bytes.** -/
theorem bytes_lt {t u : String} (h : t < u) : bytes t < bytes u := by
  rw [String.lt_iff_toList_lt] at h
  rw [bytes_eq_flatMap, bytes_eq_flatMap]
  generalize t.toList = cs at h
  generalize u.toList = ds at h
  induction h with
  | @nil d ds =>
    rw [List.flatMap_cons]
    cases hd : String.utf8EncodeChar d with
    | nil => exact absurd hd String.utf8EncodeChar_ne_nil
    | cons b bs => exact List.Lex.nil
  | rel h => exact utf8EncodeChar_append_lt h _ _
  | cons _ ih => exact List.append_left_lt ih

end Text

theorem sortedGroups_congr {gs hs : List GroupId} (h : SameMembers gs hs) :
    sortedGroups gs = sortedGroups hs :=
  congrArg (List.map Id.mk) (Text.sortedSet_congr (h.map _))

theorem sortedUsers_congr {us vs : List UserId} (h : SameMembers us vs) :
    sortedUsers us = sortedUsers vs :=
  congrArg (List.map Id.mk) (Text.sortedSet_congr (h.map _))

namespace FilterClause

theorem ownerIn_congr {us vs : List UserId} (h : SameMembers us vs) : ownerIn us = ownerIn vs :=
  congrArg (FilterClause.mk .owner .isIn) (Text.sortedSet_congr (h.map _))

theorem idIn_congr {rs qs : List RecordId} (h : SameMembers rs qs) : idIn rs = idIn qs :=
  congrArg (FilterClause.mk .id .isIn) (Text.sortedSet_congr (h.map _))

end FilterClause

/-! ### Stable sorting -/

section Stable

variable {le : α → α → Bool}

/-- There is one place to cut a list in two, the first part without a property and the second with
it. -/
theorem eq_of_append_eq_of_cut {q : α → Bool} {l₁ l₂ m₁ m₂ : List α} (h : l₁ ++ l₂ = m₁ ++ m₂)
    (hl₁ : ∀ a ∈ l₁, q a = false) (hl₂ : ∀ a ∈ l₂, q a = true) (hm₁ : ∀ a ∈ m₁, q a = false)
    (hm₂ : ∀ a ∈ m₂, q a = true) : l₁ = m₁ := by
  have cut : ∀ k₁ k₂ : List α, (∀ a ∈ k₁, q a = false) → (∀ a ∈ k₂, q a = true) →
      (k₁ ++ k₂).takeWhile (fun a => !q a) = k₁ := by
    intro k₁ k₂ h₁ h₂
    rw [List.takeWhile_append_of_pos fun a ha => by simp [h₁ a ha]]
    cases k₂ with
    | nil => simp
    | cons b k₂ => simp [h₂ b]
  rw [← cut l₁ l₂ hl₁ hl₂, h, cut m₁ m₂ hm₁ hm₂]

variable (htrans : ∀ a b c : α, le a b = true → le b c = true → le a c = true)
  (htotal : ∀ a b : α, (le a b || le b a) = true)

include htrans htotal

theorem exists_mergeSort_cons (a : α) (l : List α) :
    ∃ l₁ l₂, (a :: l).mergeSort le = l₁ ++ a :: l₂ ∧ l.mergeSort le = l₁ ++ l₂ ∧
      (∀ b ∈ l₁, le a b = false) ∧ ∀ b ∈ l₂, le a b = true := by
  obtain ⟨l₁, l₂, hcons, hl, hl₁⟩ := List.mergeSort_cons htrans htotal a l
  have hsorted := List.pairwise_mergeSort htrans htotal (a :: l)
  rw [hcons] at hsorted
  exact ⟨l₁, l₂, hcons, hl, fun b hb => by simpa using hl₁ b hb,
    (List.pairwise_cons.1 (List.pairwise_append.1 hsorted).2.1).1⟩

/-- **A stable sort commutes with leaving out entries.** -/
theorem filter_mergeSort (p : α → Bool) (l : List α) :
    (l.mergeSort le).filter p = (l.filter p).mergeSort le := by
  induction l with
  | nil => simp
  | cons a l ih =>
    obtain ⟨l₁, l₂, hcons, hl, hl₁, hl₂⟩ := exists_mergeSort_cons htrans htotal a l
    rw [hl, List.filter_append] at ih
    rw [hcons, List.filter_append]
    by_cases hp : p a = true
    · -- the entry goes to the same place whether others are left out or not
      obtain ⟨m₁, m₂, hcons', hm, hm₁, hm₂⟩ := exists_mergeSort_cons htrans htotal a (l.filter p)
      have h₁ : l₁.filter p = m₁ := eq_of_append_eq_of_cut (ih.trans hm)
        (fun b hb => hl₁ b (List.mem_filter.1 hb).1) (fun b hb => hl₂ b (List.mem_filter.1 hb).1)
        hm₁ hm₂
      have h₂ : l₂.filter p = m₂ := by
        rw [hm, h₁] at ih
        exact List.append_cancel_left ih
      rw [List.filter_cons_of_pos hp, List.filter_cons_of_pos hp, hcons', h₁, h₂]
    · rw [List.filter_cons_of_neg hp, List.filter_cons_of_neg hp, ih]

theorem mergeSort_pair {a b : α} (h : le a b = false) : [a, b].mergeSort le = [b, a] := by
  obtain ⟨l₁, l₂, hpair, hb, -, hl₂⟩ := exists_mergeSort_cons htrans htotal a [b]
  rw [List.mergeSort_singleton] at hb
  cases l₁ with
  | nil =>
    have hab : le a b = true := hl₂ b (by rw [← List.nil_append l₂, ← hb]; exact List.mem_cons_self)
    rw [h] at hab
    cases hab
  | cons c l₁ =>
    obtain ⟨rfl, hnil⟩ := List.cons.inj hb
    obtain ⟨rfl, rfl⟩ := List.append_eq_nil_iff.1 hnil.symm
    exact hpair

end Stable

end RecordAccess
