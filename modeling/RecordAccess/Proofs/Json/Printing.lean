import RecordAccess.Json.TextForm
import RecordAccess.Proofs.Json.Grammar

/-!
# Printed JSON read back

Both layouts of a value print a text of it, if its numbers are integers of at most 64 bits
(`Json.Integral`).  So what is printed is read back (`Json.read?_compact`, `Json.read?_pretty`), as
any text form is to do (`Json.LawfulTextForm`).
-/

namespace RecordAccess.Json

/-- A value whose numbers are integers of at most 64 bits. -/
inductive Integral : Json → Prop
  | null : Integral .null
  | bool (b : Bool) : Integral (.bool b)
  | integer {i : ℤ} (hlow : -2 ^ 63 ≤ i) (hhigh : i < 2 ^ 64) : Integral (.number (.integer i))
  | string (t : String) : Integral (.string t)
  | array {items : List Json} (h : ∀ item ∈ items, Integral item) : Integral (.array items)
  | object {members : List (String × Json)} (h : ∀ m ∈ members, Integral m.2) :
    Integral (.object members)

attribute [simp] Integral.null Integral.bool Integral.string

@[simp]
theorem integral_array_iff {items : List Json} :
    Integral (.array items) ↔ ∀ item ∈ items, Integral item :=
  ⟨fun h => by cases h; assumption, .array⟩

@[simp]
theorem integral_object_iff {members : List (String × Json)} :
    Integral (.object members) ↔ ∀ m ∈ members, Integral m.2 :=
  ⟨fun h => by cases h; assumption, .object⟩

/-! ### On one line -/

mutual

theorem spells_chars : ∀ {j : Json}, Integral j → Spells j j.chars
  | .null, _ => .null
  | .bool true, _ => .true
  | .bool false, _ => .false
  | .number _, .integer hlow hhigh => .integer hlow hhigh
  | .string t, _ => .string t
  | .array [], _ => .noItems blank_nil
  | .array (item :: items), .array h => by
    obtain ⟨hitem, hitems⟩ := List.forall_mem_cons.1 h
    exact .array (spellsItems_chars hitems (spells_chars hitem))
  | .object [], _ => .noMembers blank_nil
  | .object ((name, value) :: members), .object h => by
    obtain ⟨hvalue, hmembers⟩ := List.forall_mem_cons.1 h
    exact .object (spellsMembers_chars hmembers name (spells_chars hvalue))

/-- What follows an item, with a text of it in front. -/
theorem spellsItems_chars : ∀ {items : List Json}, (∀ item ∈ items, Integral item) →
    ∀ {item : Json} {cs : List Char}, Spells item cs →
      SpellsItems (item :: items) (cs ++ charsItems items)
  | [], _, _, _, hs => by
    simpa [charsItems] using SpellsItems.last blank_nil hs blank_nil
  | next :: items, h, _, _, hs => by
    obtain ⟨hnext, hitems⟩ := List.forall_mem_cons.1 h
    have hothers := spellsItems_chars hitems (spells_chars hnext)
    simpa [charsItems] using SpellsItems.more blank_nil hs blank_nil hothers

/-- What follows a member, with its name and a text of its value in front. -/
theorem spellsMembers_chars : ∀ {members : List (String × Json)},
    (∀ m ∈ members, Integral m.2) →
    ∀ (name : String) {value : Json} {cs : List Char}, Spells value cs →
      SpellsMembers ((name, value) :: members) (quoted name ++ ':' :: cs ++ charsMembers members)
  | [], _, name, _, _, hs => by
    simpa [charsMembers] using SpellsMembers.last name blank_nil blank_nil blank_nil hs blank_nil
  | (next, value) :: members, h, name, _, _, hs => by
    obtain ⟨hvalue, hmembers⟩ := List.forall_mem_cons.1 h
    have hothers := spellsMembers_chars hmembers next (spells_chars hvalue)
    simpa [charsMembers] using
      SpellsMembers.more name blank_nil blank_nil blank_nil hs blank_nil hothers

end

/-! ### On many lines -/

theorem blank_newline (indent : ℕ) : Blank (newline indent) := by
  intro c hc
  rcases List.mem_cons.1 hc with rfl | hc
  · rfl
  · rw [List.eq_of_mem_replicate hc]
    rfl

theorem blank_space : Blank [' '] := by
  intro c hc
  rw [List.mem_singleton.1 hc]
  rfl

mutual

theorem spells_lines (indent : ℕ) : ∀ {j : Json}, Integral j → Spells j (lines indent j)
  | .null, _ => .null
  | .bool true, _ => .true
  | .bool false, _ => .false
  | .number _, .integer hlow hhigh => .integer hlow hhigh
  | .string t, _ => .string t
  | .array [], _ => .noItems blank_nil
  | .array (item :: items), .array h => by
    obtain ⟨hitem, hitems⟩ := List.forall_mem_cons.1 h
    exact .array (spellsItems_lines indent hitems (spells_lines (indent + 1) hitem))
  | .object [], _ => .noMembers blank_nil
  | .object ((name, value) :: members), .object h => by
    obtain ⟨hvalue, hmembers⟩ := List.forall_mem_cons.1 h
    exact .object (spellsMembers_lines indent hmembers name (spells_lines (indent + 1) hvalue))

theorem spellsItems_lines (indent : ℕ) : ∀ {items : List Json},
    (∀ item ∈ items, Integral item) →
    ∀ {item : Json} {cs : List Char}, Spells item cs →
      SpellsItems (item :: items) (newline (indent + 1) ++ cs ++ linesItems indent items)
  | [], _, _, _, hs => by
    simpa [linesItems] using
      SpellsItems.last (blank_newline (indent + 1)) hs (blank_newline indent)
  | next :: items, h, _, _, hs => by
    obtain ⟨hnext, hitems⟩ := List.forall_mem_cons.1 h
    have hothers := spellsItems_lines indent hitems (spells_lines (indent + 1) hnext)
    simpa [linesItems] using
      SpellsItems.more (blank_newline (indent + 1)) hs blank_nil hothers

theorem spellsMembers_lines (indent : ℕ) : ∀ {members : List (String × Json)},
    (∀ m ∈ members, Integral m.2) →
    ∀ (name : String) {value : Json} {cs : List Char}, Spells value cs →
      SpellsMembers ((name, value) :: members)
        (newline (indent + 1) ++ quoted name ++ ':' :: ' ' :: cs ++ linesMembers indent members)
  | [], _, name, _, _, hs => by
    simpa [linesMembers] using
      SpellsMembers.last name (blank_newline (indent + 1)) blank_nil blank_space hs
        (blank_newline indent)
  | (next, value) :: members, h, name, _, _, hs => by
    obtain ⟨hvalue, hmembers⟩ := List.forall_mem_cons.1 h
    have hothers :=
      spellsMembers_lines indent hmembers next (spells_lines (indent + 1) hvalue)
    simpa [linesMembers] using
      SpellsMembers.more name (blank_newline (indent + 1)) blank_nil blank_space hs
        blank_nil hothers

end

/-! ### Read back -/

variable {j : Json}

/-- **A value that is printed on one line is read back.** -/
theorem read?_compact (h : Integral j) (hdepth : j.depth ≤ maxDepth) :
    read? j.compact = some j := by
  have hread := (spells_chars h).ofChars?_eq hdepth blank_nil blank_nil
  rw [List.nil_append, List.append_nil] at hread
  rw [read?, compact, String.toList_ofList, hread]

/-- **A value that is printed on many lines is read back.** -/
theorem read?_pretty (h : Integral j) (hdepth : j.depth ≤ maxDepth) :
    read? j.pretty = some j := by
  have hread := (spells_lines 0 h).ofChars?_eq hdepth blank_nil blank_nil
  rw [List.nil_append, List.append_nil] at hread
  rw [read?, pretty, String.toList_ofList, hread]

/-- What a text form of values promises of integers and of nesting up to `maxDepth`. -/
class LawfulTextForm [TextForm] : Prop where
  read?_compact : ∀ {j : Json}, Integral j → j.depth ≤ maxDepth →
    TextForm.read? (TextForm.compact j) = some j
  read?_pretty : ∀ {j : Json}, Integral j → j.depth ≤ maxDepth →
    TextForm.read? (TextForm.pretty j) = some j

instance : LawfulTextForm := ⟨read?_compact, read?_pretty⟩

end RecordAccess.Json
