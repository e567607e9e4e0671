import RecordAccess.Engine.Compile
import RecordAccess.Proofs.Runs

/-!
# What predicates match

Which records the clauses of a compiled filter match, in terms of the ids they were made from, and
when a clause may be left out.
-/

namespace RecordAccess

theorem Id.text_inj {kind : IdKind} {a b : Id kind} : a.text = b.text ↔ a = b := by
  obtain ⟨t⟩ := a
  obtain ⟨u⟩ := b
  simp

theorem Id.mem_map_text {kind : IdKind} {a : Id kind} {ids : List (Id kind)} :
    a.text ∈ ids.map (·.text) ↔ a ∈ ids := by
  simp only [List.mem_map, Id.text_inj, exists_eq_right]

namespace FilterClause

variable {record : RecordId} {owner : Option UserId}

@[simp] theorem matches_ownerEq {user : UserId} :
    (ownerEq user).matchesRecord record owner = true ↔ owner = some user := by
  cases owner with
  | none => simp [matchesRecord, ownerEq]
  | some o => simp [matchesRecord, ownerEq, Id.text_inj]

@[simp] theorem matches_ownerIn {users : List UserId} :
    (ownerIn users).matchesRecord record owner = true ↔ ∃ o ∈ users, owner = some o := by
  cases owner with
  | none => simp [matchesRecord, ownerIn]
  | some o =>
    simp only [matchesRecord, ownerIn, List.contains_iff_mem, Text.mem_sortedSet, Id.mem_map_text,
      Option.some.injEq]
    exact ⟨fun h => ⟨o, h, rfl⟩, by rintro ⟨_, h, rfl⟩; exact h⟩

@[simp] theorem matches_idIn {records : List RecordId} :
    (idIn records).matchesRecord record owner = true ↔ record ∈ records := by
  simp only [matchesRecord, idIn, List.contains_iff_mem, Text.mem_sortedSet, Id.mem_map_text]

end FilterClause

namespace SharingPredicate

theorem matches_iff {p : SharingPredicate} {record : RecordId} {owner : Option UserId} :
    p.matchesRecord record owner = true ↔
      ∃ c ∈ p.clauses, c.matchesRecord record owner = true := by
  simp [matchesRecord]

end SharingPredicate

/-- A filter admits a record; no filter at all admits every record. -/
def admits (f : Option SharingPredicate) (record : RecordId) (owner : Option UserId) : Bool :=
  f.all fun p => p.matchesRecord record owner

@[simp] theorem admits_none (record : RecordId) (owner : Option UserId) :
    admits none record owner = true := rfl

@[simp] theorem admits_some (p : SharingPredicate) (record : RecordId) (owner : Option UserId) :
    admits (some p) record owner = p.matchesRecord record owner := rfl

theorem admits_iff {f : Option SharingPredicate} {record : RecordId} {owner : Option UserId} :
    admits f record owner = true ↔
      f = none ∨ ∃ p, f = some p ∧ p.matchesRecord record owner = true := by
  cases f <;> simp

namespace Engine

theorem outcome_filterFor {e : Engine} {caller : Caller} {tenant : TenantId}
    {collection : CollectionId} {access : AccessType} :
    (e.filterFor caller tenant collection access).outcome =
      (e.compile caller tenant collection access).outcome :=
  Run.outcome_bind_self fun _ => rfl

/-- Leaving out a clause without values changes no match, if it matches nothing. -/
theorem exists_mem_unlessEmpty {α : Type} {clause : List α → FilterClause} {values : List α}
    {record : RecordId} {owner : Option UserId}
    (hempty : (clause []).matchesRecord record owner = false) :
    (∃ c ∈ unlessEmpty clause values, c.matchesRecord record owner = true) ↔
      (clause values).matchesRecord record owner = true := by
  unfold unlessEmpty
  split
  · rename_i h
    rw [List.isEmpty_iff.1 h, hempty]
    simp
  · simp

theorem matches_compiled {user : UserId} {reports owners : List UserId}
    {records : List RecordId} {record : RecordId} {owner : Option UserId} :
    (SharingPredicate.mk (FilterClause.ownerEq user ::
      unlessEmpty FilterClause.ownerIn reports ++ unlessEmpty FilterClause.ownerIn owners ++
        unlessEmpty FilterClause.idIn records)).matchesRecord record owner = true ↔
      owner = some user ∨ (∃ o ∈ reports, owner = some o) ∨ (∃ o ∈ owners, owner = some o) ∨
        record ∈ records := by
  have howner : (FilterClause.ownerIn []).matchesRecord record owner = false := by
    rw [Bool.eq_false_iff]
    simp
  have hid : (FilterClause.idIn []).matchesRecord record owner = false := by
    rw [Bool.eq_false_iff]
    simp
  simp only [SharingPredicate.matches_iff, List.mem_append, List.mem_cons, or_assoc, or_and_right,
    exists_or, exists_eq_left, exists_mem_unlessEmpty howner, exists_mem_unlessEmpty hid,
    FilterClause.matches_ownerEq, FilterClause.matches_ownerIn, FilterClause.matches_idIn]

end Engine

end RecordAccess
