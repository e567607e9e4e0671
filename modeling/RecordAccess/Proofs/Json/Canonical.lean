import Mathlib.Data.List.Basic
import Mathlib.Data.String.Basic
import RecordAccess.Json.Content

/-!
# The canonical form of JSON values

The canonical form of a value is in canonical form itself (`Json.canonical_canonical`): a tidy list
stays tidy when a member is put into it, and the members of a tidy list are put where they are.

A value that is read without a type is taken in canonical form (`Json.untyped?_eq`), unless an
object in it begins with the reserved name (`Json.Plain`).
-/

namespace RecordAccess.Json

open Text (sortedPut)

variable {name : String} {value : Json} {members acc : List (String × Json)}

/-- Members sorted by name, each there once, with values in canonical form. -/
structure Tidy (members : List (String × Json)) : Prop where
  sorted : members.Pairwise fun a b => a.1 < b.1
  values : ∀ m ∈ members, m.2.canonical = m.2

theorem tidy_nil : Tidy [] := ⟨.nil, by simp⟩

theorem mem_sortedPut {m : String × Json} (h : m ∈ sortedPut name value acc) :
    m = (name, value) ∨ m ∈ acc := by
  induction acc with
  | nil => exact .inl (List.mem_singleton.1 h)
  | cons first rest ih =>
    unfold sortedPut at h
    split_ifs at h with heq hlt
    · exact (List.mem_cons.1 h).imp_right (List.mem_cons_of_mem first)
    · exact List.mem_cons.1 h
    · rcases List.mem_cons.1 h with rfl | h
      · exact .inr List.mem_cons_self
      · exact (ih h).imp_right (List.mem_cons_of_mem first)

theorem pairwise_sortedPut (h : acc.Pairwise fun a b => a.1 < b.1) :
    (sortedPut name value acc).Pairwise fun a b => a.1 < b.1 := by
  induction acc with
  | nil => exact List.pairwise_singleton _ _
  | cons first rest ih =>
    obtain ⟨hfirst, hrest⟩ := List.pairwise_cons.1 h
    unfold sortedPut
    split_ifs with heq hlt
    · exact List.pairwise_cons.2 ⟨fun m hm => heq ▸ hfirst m hm, hrest⟩
    · refine List.pairwise_cons.2 ⟨fun m hm => ?_, h⟩
      rcases List.mem_cons.1 hm with rfl | hm
      · exact hlt
      · exact hlt.trans (hfirst m hm)
    · refine List.pairwise_cons.2 ⟨fun m hm => ?_, ih hrest⟩
      rcases mem_sortedPut hm with rfl | hm
      · exact lt_of_le_of_ne (not_lt.1 hlt) (Ne.symm heq)
      · exact hfirst m hm

theorem Tidy.put (h : Tidy acc) (hvalue : value.canonical = value) :
    Tidy (sortedPut name value acc) := by
  refine ⟨pairwise_sortedPut h.sorted, fun m hm => ?_⟩
  rcases mem_sortedPut hm with rfl | hm
  · exact hvalue
  · exact h.values m hm

theorem sortedPut_eq_append (h : ∀ m ∈ acc, m.1 < name) :
    sortedPut name value acc = acc ++ [(name, value)] := by
  induction acc with
  | nil => rfl
  | cons first rest ih =>
    obtain ⟨hfirst, hrest⟩ := List.forall_mem_cons.1 h
    have hne : name ≠ first.1 := hfirst.ne'
    have hlt : ¬ name < first.1 := hfirst.asymm
    rw [sortedPut, if_neg hne, if_neg hlt, ih hrest, List.cons_append]

theorem Tidy.canonicalMembers_eq (h : Tidy (acc ++ members)) :
    canonicalMembers members acc = acc ++ members := by
  induction members generalizing acc with
  | nil => rw [canonicalMembers, List.append_nil]
  | cons m members ih =>
    obtain ⟨name, value⟩ := m
    have hlast : ∀ a ∈ acc, a.1 < name := fun a ha =>
      (List.pairwise_append.1 h.sorted).2.2 a ha _ List.mem_cons_self
    have hvalue : value.canonical = value :=
      h.values (name, value) (List.mem_append_right acc List.mem_cons_self)
    have hassoc : acc ++ (name, value) :: members = acc ++ [(name, value)] ++ members := by simp
    rw [canonicalMembers, hvalue, sortedPut_eq_append hlast, hassoc]
    exact ih (hassoc ▸ h)

mutual

/-- **The canonical form is in canonical form.** -/
theorem canonical_canonical : ∀ j : Json, j.canonical.canonical = j.canonical
  | .null => rfl
  | .bool _ => rfl
  | .number _ => rfl
  | .string _ => rfl
  | .array items => congrArg Json.array (canonicalItems_canonicalItems items)
  | .object members =>
    congrArg Json.object (tidy_canonicalMembers members tidy_nil).canonicalMembers_eq

theorem canonicalItems_canonicalItems : ∀ items : List Json,
    canonicalItems (canonicalItems items) = canonicalItems items
  | [] => rfl
  | item :: items =>
    congrArg₂ List.cons (canonical_canonical item) (canonicalItems_canonicalItems items)

theorem tidy_canonicalMembers : ∀ (members : List (String × Json)) {acc : List (String × Json)},
    Tidy acc → Tidy (canonicalMembers members acc)
  | [], _, h => h
  | (_, value) :: members, _, h =>
    tidy_canonicalMembers members (h.put (canonical_canonical value))

end

/-! ### Values without a type -/

/-- No object in a value begins with the reserved name. -/
inductive Plain : Json → Prop
  | null : Plain .null
  | bool (b : Bool) : Plain (.bool b)
  | number (n : Number) : Plain (.number n)
  | string (t : String) : Plain (.string t)
  | array {items : List Json} (h : ∀ item ∈ items, Plain item) : Plain (.array items)
  | object {members : List (String × Json)} (first : ∀ m ∈ members.head?, m.1 ≠ reservedName)
    (h : ∀ m ∈ members, Plain m.2) : Plain (.object members)

attribute [simp] Plain.null Plain.bool Plain.number Plain.string

@[simp]
theorem plain_array_iff {items : List Json} :
    Plain (.array items) ↔ ∀ item ∈ items, Plain item :=
  ⟨fun h => by cases h; assumption, .array⟩

@[simp]
theorem plain_object_iff {members : List (String × Json)} :
    Plain (.object members) ↔
      (∀ m ∈ members.head?, m.1 ≠ reservedName) ∧ ∀ m ∈ members, Plain m.2 :=
  ⟨fun h => by cases h with | object first h => exact ⟨first, h⟩, fun ⟨first, h⟩ => .object first h⟩

mutual

/-- A plain value is settled without rereading anything. -/
theorem settle_eq (reread : String → Option Json) :
    ∀ {j : Json}, j.Plain → settle reread j = some j.canonical
  | .null, _ => rfl
  | .bool _, _ => rfl
  | .number _, _ => rfl
  | .string _, _ => rfl
  | .array _, .array h => by
    rw [settle, settleItems_eq reread h, Option.map_some, canonical]
  | .object [], _ => rfl
  | .object ((name, value) :: members), .object first h => by
    obtain ⟨hvalue, hmembers⟩ := List.forall_mem_cons.1 h
    have hname : name ≠ reservedName := first _ rfl
    rw [settle, if_neg hname, settle_eq reread hvalue, canonical, canonicalMembers]
    simp only [Option.bind_eq_bind, Option.bind_some, settleMembers_eq reread hmembers,
      Option.map_some]

theorem settleItems_eq (reread : String → Option Json) :
    ∀ {items : List Json}, (∀ item ∈ items, item.Plain) →
      settleItems reread items = some (canonicalItems items)
  | [], _ => rfl
  | item :: items, h => by
    obtain ⟨hitem, hitems⟩ := List.forall_mem_cons.1 h
    simp only [settleItems, settle_eq reread hitem, settleItems_eq reread hitems,
      Option.bind_eq_bind, Option.bind_some, Option.pure_def, canonicalItems]

theorem settleMembers_eq (reread : String → Option Json) :
    ∀ {members : List (String × Json)}, (∀ m ∈ members, m.2.Plain) →
      ∀ {acc : List (String × Json)},
        settleMembers reread members acc = some (canonicalMembers members acc)
  | [], _, _ => rfl
  | (name, value) :: members, h, acc => by
    obtain ⟨hvalue, hmembers⟩ := List.forall_mem_cons.1 h
    simp only [settleMembers, settle_eq reread hvalue, Option.bind_eq_bind, Option.bind_some,
      settleMembers_eq reread hmembers, canonicalMembers]

end

/-- **A plain value without a type is taken in canonical form.** -/
theorem untyped?_eq {j : Json} (h : j.Plain) : untyped? j = some j.canonical := settle_eq held? h

/-- An object with the reserved name stands for the document that its member holds. -/
theorem untyped?_reserved {text : String} {j : Json} (hread : read? text = some j) (h : j.Plain) :
    untyped? (.object [(reservedName, .string text)]) = some j.canonical := by
  have hheld : untyped? (.object [(reservedName, .string text)]) = held? text := by
    rw [untyped?, settle, if_pos rfl, document?]
  rw [hheld, held?, hread, Option.bind_some, settle_eq _ h]

end RecordAccess.Json
