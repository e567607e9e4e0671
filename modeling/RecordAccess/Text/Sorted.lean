/-!
# Sorted sets of texts

A set of texts is kept as a strictly increasing list.  Texts are ordered by code point, which is
also the order of their UTF-8 bytes.

Main definitions: `sortedInsert` adds one text, `sortedSet` sorts a list and drops repetitions, and
`sortedPut` sets what a text stands for in a table sorted by text.
-/

namespace RecordAccess.Text

/-- Adds a text to a strictly increasing list, unless it is there already. -/
def sortedInsert (t : String) : List String → List String
  | [] => [t]
  | u :: rest =>
    if t = u then u :: rest
    else if t < u then t :: u :: rest
    else u :: sortedInsert t rest

/-- The distinct texts of a list, in increasing order. -/
def sortedSet (ts : List String) : List String := ts.foldr sortedInsert []

/-- Sets the value of a name in a table sorted by name. -/
def sortedPut {α : Type} (name : String) (value : α) : List (String × α) → List (String × α)
  | [] => [(name, value)]
  | (n, v) :: rest =>
    if name = n then (name, value) :: rest
    else if name < n then (name, value) :: (n, v) :: rest
    else (n, v) :: sortedPut name value rest

/-- The table made by setting one name after another; of a repeated name the last value counts. -/
def sortedTable {α : Type} (members : List (String × α)) : List (String × α) :=
  members.foldl (fun acc m => sortedPut m.1 m.2 acc) []

theorem mem_sortedInsert {t x : String} {us : List String} :
    x ∈ sortedInsert t us ↔ x = t ∨ x ∈ us := by
  induction us with
  | nil => simp [sortedInsert]
  | cons u rest ih =>
    unfold sortedInsert
    split
    · rename_i h; subst h; simp
    · split
      · simp
      · simp only [List.mem_cons, ih]
        constructor <;> rintro (h | h | h) <;> simp [h]

@[simp]
theorem mem_sortedSet {x : String} {ts : List String} : x ∈ sortedSet ts ↔ x ∈ ts := by
  induction ts with
  | nil => simp [sortedSet]
  | cons t rest ih =>
    show x ∈ sortedInsert t (sortedSet rest) ↔ _
    rw [mem_sortedInsert, ih, List.mem_cons]

end RecordAccess.Text
