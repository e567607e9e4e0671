import Mathlib.Data.Fintype.EquivFin
import RecordAccess.Filter.Sql
import RecordAccess.Proofs.Widening

/-!
# Filters that admit everything or nothing

A predicate has finitely many values, so some record without an owner matches none of them
(`SharingPredicate.exists_not_matchesRecord`): only where there is no filter is every record
admitted.  Each value of a predicate matches some record (`SharingPredicate.isNothing_iff`): only
where no clause has values is none admitted, and the texts of the predicate say so
(`SharingPredicate.sql_eq_false_iff`, `SharingPredicate.display_eq_false_iff`).

A filter that was compiled admits the records of the caller unless the object permission is missing
(`Engine.exists_permission_of_compile`), so in no other case does it admit nothing.  The decisions
follow the filter (`Store.extremes_are_exact`).
-/

namespace RecordAccess

/-! ### Records that match -/

theorem FilterClause.exists_matchesRecord {c : FilterClause} (h : c.values ≠ []) :
    ∃ record owner, c.matchesRecord record owner = true := by
  obtain ⟨text, htext⟩ := List.exists_mem_of_ne_nil c.values h
  refine ⟨⟨text⟩, some ⟨text⟩, ?_⟩
  cases hcolumn : c.column <;> simpa [matchesRecord, hcolumn] using htext

namespace SharingPredicate

variable {p : SharingPredicate}

theorem isNothing_eq_true_iff : p.isNothing = true ↔ ∀ c ∈ p.clauses, c.values = [] := by
  simp [isNothing]

/-- Only a predicate without values matches nothing. -/
theorem isNothing_iff :
    p.isNothing = true ↔ ∀ record owner, p.matchesRecord record owner = false := by
  rw [isNothing_eq_true_iff]
  constructor
  · intro hnone record owner
    rw [Bool.eq_false_iff, ne_eq, matches_iff]
    rintro ⟨c, hc, hmatch⟩
    have hvalues := hnone c hc
    cases hcolumn : c.column <;> cases owner <;>
      simp [FilterClause.matchesRecord, hcolumn, hvalues] at hmatch
  · intro hnone c hc
    by_contra hvalues
    obtain ⟨record, owner, hmatch⟩ := FilterClause.exists_matchesRecord hvalues
    exact Bool.false_ne_true ((hnone record owner).symm.trans (matches_iff.2 ⟨c, hc, hmatch⟩))

/-- Every predicate leaves out some record without an owner: one whose id is not among the
values. -/
theorem exists_not_matchesRecord (p : SharingPredicate) :
    ∃ record, p.matchesRecord record none = false := by
  obtain ⟨text, htext⟩ := Infinite.exists_notMem_finset (p.clauses.flatMap (·.values)).toFinset
  refine ⟨⟨text⟩, ?_⟩
  rw [Bool.eq_false_iff, ne_eq, matches_iff]
  rintro ⟨c, hc, hmatch⟩
  cases hcolumn : c.column with
  | owner => simp [FilterClause.matchesRecord, hcolumn] at hmatch
  | id =>
    simp only [FilterClause.matchesRecord, hcolumn, List.contains_iff_mem] at hmatch
    exact htext (List.mem_toFinset.2 (List.mem_flatMap.2 ⟨c, hc, hmatch⟩))

/-! ### Texts that say so -/

theorem used_eq_nil_iff : p.used = [] ↔ p.isNothing = true := by
  simp [used, isNothing]

end SharingPredicate

theorem FilterClause.exists_display_eq (c : FilterClause) :
    ∃ rest, c.display = c.column.name ++ rest := by
  unfold display
  cases c.operator <;> exact ⟨_, by simp only [String.append_assoc]; rfl⟩

theorem Sql.Comparison.head?_chars (c : Comparison) : c.chars.head? = some '\x22' := by
  unfold chars
  split <;> rfl

theorem Sql.comparisons_eq_nil_iff (columns : FilterColumns) (next : ℕ)
    {clauses : List FilterClause} : comparisons columns next clauses = [] ↔ clauses = [] := by
  cases clauses <;> simp [comparisons]

theorem Sql.Term.chars_eq_false_iff {t : Term} :
    t.chars = ['F', 'A', 'L', 'S', 'E'] ↔ t = [] := by
  constructor
  · intro h
    match t, h with
    | [], _ => rfl
    | [c], h =>
      have hhead := c.head?_chars
      rw [show c.chars = _ from h] at hhead
      cases hhead
    | _ :: _ :: _, h => cases h
  · rintro rfl
    rfl

namespace SharingPredicate

variable {p : SharingPredicate}

/-- The text shown to people says `FALSE` for what matches nothing only. -/
theorem display_eq_false_iff : p.display = "FALSE" ↔ p.isNothing = true := by
  unfold display
  split
  · rename_i hnothing
    simp [hnothing]
  · rename_i hsome
    refine iff_of_false ?_ hsome
    obtain ⟨c, rest, hused⟩ := List.exists_cons_of_ne_nil (mt used_eq_nil_iff.1 hsome)
    obtain ⟨text, htext⟩ := c.exists_display_eq
    rw [hused, List.map_cons, htext, String.intercalate_cons_append]
    intro h
    have hchars := congrArg String.toList h
    cases hcolumn : c.column <;> simp [hcolumn, FilterColumn.name] at hchars

/-- So does the rendered text, whatever the columns are called. -/
theorem sql_eq_false_iff {columns : FilterColumns} {first : ℕ} :
    (p.toSql columns first).sql = "FALSE" ↔ p.isNothing = true := by
  rw [← used_eq_nil_iff, ← Sql.comparisons_eq_nil_iff columns first, ← Sql.Term.chars_eq_false_iff]
  exact String.ofList_inj

end SharingPredicate

/-! ### Filters that were compiled -/

/-- A filter admits every record only if there is none. -/
theorem admits_all_iff {f : Option SharingPredicate} :
    f = none ↔ ∀ record owner, admits f record owner = true := by
  cases f with
  | none => simp
  | some p =>
    refine iff_of_false (by simp) fun hall => ?_
    obtain ⟨record, hrecord⟩ := p.exists_not_matchesRecord
    exact Bool.false_ne_true (hrecord.symm.trans (hall record none))

/-- A filter admits no record only if it is a predicate without values. -/
theorem admits_nothing_iff {f : Option SharingPredicate} :
    (∃ p, f = some p ∧ p.isNothing = true) ↔ ∀ record owner, admits f record owner = false := by
  cases f with
  | none => simp
  | some p => simp [SharingPredicate.isNothing_iff]

namespace Engine

variable {e : Engine} {caller : Caller} {tenant : TenantId} {collection : CollectionId}
  {access : AccessType}

/-- Among single records, a caller always reaches the own ones. -/
theorem admits_own_of_compileRecords {f : Option SharingPredicate}
    (h : (e.compileRecords caller tenant collection access).outcome = .ok f) (record : RecordId) :
    admits f record (some caller.userId) = true := by
  obtain ⟨reports, -, hrest⟩ := Run.outcome_bind_eq_ok.1 h
  obtain ⟨⟨caller', owners⟩, howners, hrest⟩ := Run.outcome_bind_eq_ok.1 hrest
  cases owners with
  | none =>
    -- a rule opens every record
    cases hrest
    rfl
  | some owners =>
    -- the caller goes on as the subject that the rules resolved, who is the same user
    obtain ⟨records, -, heq⟩ := Run.outcome_bind_eq_ok.1 hrest
    cases heq
    rw [admits_some, matches_compiled, Store.userId_of_sharedOwners howners]
    exact .inl rfl

/-- **A filter that was compiled admits the records of the caller**, unless the object permission is
missing. -/
theorem exists_permission_of_compile {f : Option SharingPredicate}
    (h : (e.compile caller tenant collection access).outcome = .ok f) :
    ∃ permission, (e.ask (.objectPermission caller.userId collection)).outcome = .ok permission ∧
      (permission.permits access = false ∧ f = some .nothing ∨
        permission.permits access = true ∧
          ∀ record, admits f record (some caller.userId) = true) := by
  obtain ⟨permission, hpermission, h⟩ := Run.outcome_bind_eq_ok.1 h
  refine ⟨permission, hpermission, ?_⟩
  -- only a missing permission keeps a caller from the own records
  split at h
  · rename_i hdenied
    cases h
    exact .inl ⟨by simpa using hdenied, rfl⟩
  · rename_i hpermits
    refine .inr ⟨by simpa using hpermits, fun record => ?_⟩
    split at h
    · cases h
      rfl
    · obtain ⟨baseline, -, h⟩ := Run.outcome_bind_eq_ok.1 h
      split at h
      · cases h
        rfl
      · exact admits_own_of_compileRecords h record

end Engine

/-! ### Decisions about all records -/

/-- A filter and the decisions about the records of a collection agree on the extremes: there is no
filter where all decisions grant, and it matches nothing where none does, which is where the object
permission is missing.  Only then the texts of the filter say `FALSE`. -/
structure Extremes (permits : Bool) (f : Option SharingPredicate)
    (decision : RecordId → Option UserId → Run Decision) : Prop where
  decided : ∀ record owner, ∃ d, (decision record owner).outcome = .ok d
  all : f = none ↔ ∀ record owner, (decision record owner).IsGranted
  nothing : (∃ p, f = some p ∧ p.isNothing = true) ↔
    ∀ record owner, ¬ (decision record owner).IsGranted
  gate : (∃ p, f = some p ∧ p.isNothing = true) ↔ permits = false
  sql : ∀ p columns first, f = some p →
    ((p.toSql columns first).sql = "FALSE" ↔ p.isNothing = true)
  display : ∀ p, f = some p → (p.display = "FALSE" ↔ p.isNothing = true)

namespace Store

variable {s : Store} {settings : EngineSettings} {caller : Caller} {tenant : TenantId}
  {collection : CollectionId} {access : AccessType} {f : Option SharingPredicate}

theorem Consistent.extremes (hs : s.Consistent)
    (h : ((s.engine settings).filterFor caller tenant collection access).outcome = .ok f) :
    Extremes ((s.permissionOf caller.userId collection).permits access) f fun record owner =>
      (s.engine settings).evaluateFor caller ⟨tenant, collection, record, owner⟩ access := by
  have hgranted := hs.isGranted_iff_admits h
  refine ⟨fun record owner => ?_, ?_, ?_, ?_, fun p columns first _ => p.sql_eq_false_iff,
    fun p _ => p.display_eq_false_iff⟩
  · obtain ⟨d, hd, -⟩ :=
      hs.filterFor_agree settings caller tenant collection access f h record owner
    exact ⟨d, hd⟩
  · simp only [hgranted, admits_all_iff]
  · simp only [hgranted, admits_nothing_iff, Bool.not_eq_true]
  · rw [Engine.outcome_filterFor] at h
    obtain ⟨permission, hpermission, hcases⟩ := Engine.exists_permission_of_compile h
    obtain ⟨-, rfl⟩ := engine_ask_eq_ok.1 hpermission
    rw [admits_nothing_iff]
    obtain ⟨hmissing, rfl⟩ | ⟨hpermits, hown⟩ := hcases
    · exact iff_of_true (fun _ _ => rfl) hmissing
    · -- the records of the caller are admitted, whatever else is
      refine iff_of_false (fun hnone => ?_) fun hmissing => ?_
      · exact Bool.false_ne_true ((hnone default _).symm.trans (hown default))
      · exact Bool.false_ne_true (hmissing.symm.trans hpermits)

/-- **The extremes are exact.**  Whatever a store has come to hold and whichever providers fail:
where a filter can be compiled for a user or a subject, all decisions can be made.  There is no
filter exactly where each record is granted, with any owner or without.  And the filter matches
nothing exactly where no record is granted, which is where the object permission is missing, and
which both of its texts say. -/
theorem extremes_are_exact (history : List Mutation) (settings : EngineSettings)
    (tenant : TenantId) (collection : CollectionId) (access : AccessType) :
    let s := ofHistory history
    let e := s.engine settings
    (∀ user f, (e.filter user tenant collection access).outcome = .ok f →
      Extremes ((s.permissionOf user collection).permits access) f fun record owner =>
        e.evaluate user ⟨tenant, collection, record, owner⟩ access) ∧
    ∀ subject f, (e.filterAs subject tenant collection access).outcome = .ok f →
      Extremes ((s.permissionOf subject.user collection).permits access) f fun record owner =>
        e.evaluateAs subject ⟨tenant, collection, record, owner⟩ access := by
  intro s e
  have hs := consistent_ofHistory history
  exact ⟨fun user f h => hs.extremes h, fun subject f h => hs.extremes h⟩

/-- A private collection that everybody may only read, and groups that do not answer. -/
def readers : List Mutation :=
  [.defaultPermission .readOnly, .orgWideDefault ⟨⟨"t"⟩, ⟨"c"⟩, .privateAccess⟩,
    .failProvider .groups]

/-- A user may edit nothing, although no group could be asked, and a subject may read some records
but not all. -/
theorem readers_edit_nothing :
    let e := (ofHistory readers).engine ⟨10, .direct⟩
    let subject : AccessSubject := ⟨⟨"ann"⟩, none, none, []⟩
    (e.filter ⟨"ann"⟩ ⟨"t"⟩ ⟨"c"⟩ .edit).outcome = .ok (some .nothing) ∧
      (∀ record owner,
        ¬ (e.evaluate ⟨"ann"⟩ ⟨⟨"t"⟩, ⟨"c"⟩, record, owner⟩ .edit).IsGranted) ∧
      (e.filterAs subject ⟨"t"⟩ ⟨"c"⟩ .read).outcome = .ok (some ⟨[.ownerEq ⟨"ann"⟩]⟩) ∧
      (¬ ∀ record owner,
        (e.evaluateAs subject ⟨⟨"t"⟩, ⟨"c"⟩, record, owner⟩ .read).IsGranted) ∧
      ¬ ∀ record owner,
        ¬ (e.evaluateAs subject ⟨⟨"t"⟩, ⟨"c"⟩, record, owner⟩ .read).IsGranted := by
  intro e subject
  have hedit : (e.filter ⟨"ann"⟩ ⟨"t"⟩ ⟨"c"⟩ .edit).outcome = .ok (some .nothing) := rfl
  have hread : (e.filterAs subject ⟨"t"⟩ ⟨"c"⟩ .read).outcome =
      .ok (some ⟨[.ownerEq ⟨"ann"⟩]⟩) := by rfl
  have hnothing := (extremes_are_exact readers ⟨10, .direct⟩ ⟨"t"⟩ ⟨"c"⟩ .edit).1 _ _ hedit
  have hsome := (extremes_are_exact readers ⟨10, .direct⟩ ⟨"t"⟩ ⟨"c"⟩ .read).2 _ _ hread
  refine ⟨hedit, hnothing.nothing.1 ⟨_, rfl, rfl⟩, hread, fun hall => ?_, fun hnone => ?_⟩
  · cases hsome.all.2 hall
  · cases hsome.gate.1 (hsome.nothing.2 hnone)

end Store

end RecordAccess
