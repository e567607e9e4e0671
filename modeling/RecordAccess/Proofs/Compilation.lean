import RecordAccess.Proofs.Widening

/-!
# What compiled filters admit

A filter collects the reports of a user, the owners that rules open and the records that are shared,
each from a question about a whole collection.  Put together, it admits exactly the records that
some source grants (`Store.exists_grants_compile`).  This is said of every engine that is told what
a store holds, and of every store, even of one that holds a user twice.
-/

namespace RecordAccess

/-- The questions that a filter asks, but for that about the object permission. -/
def Query.IsCollective : Query → Prop
  | .objectPermission .. | .directShares .. | .groupShares .. => False
  | _ => True

theorem Query.IsCollective.provider_ne {c : Query} (hc : c.IsCollective) :
    c.provider ≠ .objectPermissions := by
  cases c with
  | objectPermission => exact hc.elim
  | _ => exact Provider.noConfusion

namespace Store

variable {s : Store} {e : Engine} {subject : AccessSubject} {tenant : TenantId}
  {collection : CollectionId} {access : AccessType}

theorem groups_of_collective (he : e.AnsweredFrom s Query.IsCollective) :
    e.AnsweredFrom s fun c => c.provider = .groups :=
  he.mono fun c _ => by cases c <;> trivial

section Collected

variable (he : e.AnsweredFrom s Query.IsCollective)

include he

/-! ### Managers -/

theorem exists_subordinates (user : UserId) :
    ∃ us, (e.subordinates user).outcome = .ok us ∧
      ∀ x, x ∈ us ↔ e.settings.managerScope.Reaches s.ManagedBy x user := by
  have hreports := fun m => he (.subordinates m) trivial
  obtain ⟨us, hus⟩ := Engine.exists_ok_subordinates (fun m => ⟨_, hreports m⟩) user
  exact ⟨us, hus, mem_subordinates_iff hreports hus⟩

/-! ### Rules -/

theorem exists_principalUsers (tenant : TenantId) (p : Principal) :
    ∃ us, (e.principalUsers tenant p).outcome = .ok us ∧
      ∀ u, u ∈ us ↔ s.Contains tenant p u := by
  cases p with
  | user id => exact ⟨[id], rfl, fun u => by simp [Contains, eq_comm]⟩
  | group g => exact exists_effectiveUsers (groups_of_collective he) g
  | queue g => exact exists_effectiveUsers (groups_of_collective he) g
  | role r =>
    refine ⟨_, he (.roleHolders tenant r) trivial, fun u => ?_⟩
    simp only [answer, List.mem_map, List.mem_filter, hasRoleIn_iff, Contains]
    constructor
    · rintro ⟨x, ⟨hx, hrole⟩, hid⟩
      exact ⟨x, hx, hid, hrole⟩
    · rintro ⟨x, hx, hid, hrole⟩
      exact ⟨x, ⟨hx, hrole⟩, hid⟩

/-- Collecting the owners of rules opens what was open before and what one of the rules opens. -/
theorem exists_ruleOwners (tenant : TenantId) (collection : CollectionId)
    (rules : List SharingRule) (owners : List UserId) :
    ∃ found, (e.ruleOwners tenant (rules.map fun r => (r, r.scope)) owners).outcome = .ok found ∧
      ∀ id owner, (∀ us, found = some us → ∃ o ∈ us, owner = some o) ↔
        (∃ o ∈ owners, owner = some o) ∨
          ∃ r ∈ rules, s.Opens ⟨tenant, collection, id, owner⟩ r.kind := by
  -- what the rules gone through opened is carried along in `owners`
  induction rules generalizing owners with
  | nil => exact ⟨some owners, rfl, by simp⟩
  | cons r rules ih =>
    rw [List.map_cons, SharingRule.scope]
    cases hkind : r.kind with
    | criteriaBased criteria =>
      refine ⟨none, rfl, fun id owner => iff_of_true (by simp) (.inr ⟨r, by simp, ?_⟩)⟩
      rw [hkind]
      trivial
    | ownerBased sharedFrom =>
      obtain ⟨us, hus, hmem⟩ := exists_principalUsers he tenant sharedFrom
      obtain ⟨found, hfound, hiff⟩ := ih (owners ++ us)
      refine ⟨found, (Run.outcome_bind_of_ok hus _).trans hfound, fun id owner => ?_⟩
      have hopens : s.Opens ⟨tenant, collection, id, owner⟩ r.kind ↔ ∃ o ∈ us, owner = some o := by
        rw [hkind]
        simp only [Opens, hmem, and_comm]
      have happend : (∃ o ∈ owners ++ us, owner = some o) ↔
          (∃ o ∈ owners, owner = some o) ∨ ∃ o ∈ us, owner = some o := by
        simp only [List.mem_append, or_and_right, exists_or]
      rw [hiff, happend, List.exists_mem_cons_iff, hopens, or_assoc]

theorem exists_sharedOwners (subject : AccessSubject) (tenant : TenantId)
    (collection : CollectionId) (access : AccessType) :
    ∃ found, (e.sharedOwners (.subject subject) tenant collection access).outcome =
        .ok (.subject subject, found) ∧
      ∀ id owner, (∀ us, found = some us → ∃ o ∈ us, owner = some o) ↔
        ∃ r ∈ s.rules, s.RuleGrants subject ⟨tenant, collection, id, owner⟩ access r := by
  have hrules := he (.activeRules tenant collection) trivial
  obtain ⟨found, hfound, hiff⟩ := exists_ruleOwners he tenant collection
    ((s.answer (.activeRules tenant collection)).filter fun r => r.appliesTo subject access) []
  -- the provider selects rules by where they apply, the engine by whom they are shared with
  have hgrants : ∀ id owner, (∀ us, found = some us → ∃ o ∈ us, owner = some o) ↔
      ∃ r ∈ s.rules, s.RuleGrants subject ⟨tenant, collection, id, owner⟩ access r := by
    intro id owner
    simp only [hiff id owner, List.not_mem_nil, false_and, exists_false, false_or, List.mem_filter,
      answer, Bool.and_eq_true, decide_eq_true_eq]
    refine exists_congr fun r => ?_
    constructor
    · rintro ⟨⟨⟨hr, ⟨ht, hc⟩, -⟩, happlies⟩, hopens⟩
      exact ⟨hr, (ruleGrants_iff ht hc).2 ⟨happlies, hopens⟩⟩
    · rintro ⟨hr, h⟩
      obtain ⟨happlies, hopens⟩ := (ruleGrants_iff h.tenant h.collection).1 h
      exact ⟨⟨⟨hr, ⟨h.tenant, h.collection⟩, h.active⟩, happlies⟩, hopens⟩
  refine ⟨found, ?_, hgrants⟩
  rw [Engine.sharedOwners, Run.outcome_bind_of_ok hrules]
  split
  · -- without rules nothing is collected
    rename_i hempty
    rw [List.isEmpty_iff.1 hempty] at hfound
    cases hfound
    rfl
  · exact Run.outcome_bind_of_ok hfound _

/-! ### Shares -/

theorem exists_sharedRecords (subject : AccessSubject) (tenant : TenantId)
    (collection : CollectionId) (access : AccessType) :
    ∃ records, (e.sharedRecords (.subject subject) tenant collection access).outcome =
        .ok records ∧
      ∀ id owner, id ∈ records ↔
        (∃ share ∈ s.shares, ShareGrants (fun w => w = .user subject.user)
          ⟨tenant, collection, id, owner⟩ access share) ∨
        ∃ share ∈ s.shares, ShareGrants (fun w => ∃ g ∈ subject.groups, w = .group g)
          ⟨tenant, collection, id, owner⟩ access share := by
  refine ⟨_, Run.outcome_bind_of_ok (he (.collectionShares tenant collection) trivial) _,
    fun id owner => ?_⟩
  simp only [List.mem_map, List.mem_filter, Bool.and_eq_true, decide_eq_true_eq,
    AccessSubject.isRecipient_iff]
  constructor
  · rintro ⟨share, ⟨hin, ⟨ht, hl⟩, hw⟩, hr⟩
    obtain ⟨hshare, hc, -⟩ := mem_collectionShares.1 hin
    exact hw.imp (fun hw => ⟨share, hshare, ht, hc, hr, hl, hw⟩) fun hw =>
      ⟨share, hshare, ht, hc, hr, hl, hw⟩
  · rintro (⟨share, hshare, h⟩ | ⟨share, hshare, h⟩)
    · have hin := mem_collectionShares.2 ⟨hshare, h.collection, h.tenant⟩
      exact ⟨share, ⟨hin, ⟨h.tenant, h.level⟩, .inl h.recipient⟩, h.record⟩
    · have hin := mem_collectionShares.2 ⟨hshare, h.collection, h.tenant⟩
      exact ⟨share, ⟨hin, ⟨h.tenant, h.level⟩, .inr h.recipient⟩, h.record⟩

/-! ### The filter -/

/-- The filter by single records admits those that some source grants. -/
theorem exists_grants_compileRecords (subject : AccessSubject) (tenant : TenantId)
    (collection : CollectionId) (access : AccessType)
    (hbypass : ¬ (s.permissionOf subject.user collection).bypasses access = true)
    (hdefault : ¬ (s.defaultOf tenant collection).grants access = true) :
    ∃ f, (e.compileRecords (.subject subject) tenant collection access).outcome = .ok f ∧
      ∀ id owner, admits f id owner = true ↔
        s.Grants e.settings.managerScope subject ⟨tenant, collection, id, owner⟩ access := by
  obtain ⟨reports, hreports, hmanages⟩ := exists_subordinates he subject.user
  obtain ⟨found, howners, hopens⟩ := exists_sharedOwners he subject tenant collection access
  obtain ⟨records, hrecords, hshares⟩ := exists_sharedRecords he subject tenant collection access
  have hgrants : ∀ id owner,
      s.Grants e.settings.managerScope subject ⟨tenant, collection, id, owner⟩ access ↔
        owner = some subject.user ∨ (∃ o ∈ reports, owner = some o) ∨
          (∀ us, found = some us → ∃ o ∈ us, owner = some o) ∨ id ∈ records := by
    intro id owner
    rw [hopens id owner, hshares id owner]
    constructor
    · intro h
      cases h with
      | bypass h => exact absurd h hbypass
      | orgWideDefault h => exact absurd h hdefault
      | ownership h => exact .inl h
      | manager o ho h => exact .inr (.inl ⟨o, (hmanages o).2 h, ho⟩)
      | rule r hr h => exact .inr (.inr (.inl ⟨r, hr, h⟩))
      | recordShare share hs h => exact .inr (.inr (.inr (.inl ⟨share, hs, h⟩)))
      | groupShare share hs h => exact .inr (.inr (.inr (.inr ⟨share, hs, h⟩)))
    · rintro (h | ⟨o, hmem, ho⟩ | ⟨r, hr, h⟩ | ⟨share, hs, h⟩ | ⟨share, hs, h⟩)
      · exact .ownership h
      · exact .manager o ho ((hmanages o).1 hmem)
      · exact .rule r hr h
      · exact .recordShare share hs h
      · exact .groupShare share hs h
  rw [Engine.compileRecords, Caller.userId, Run.outcome_bind_of_ok hreports,
    Run.outcome_bind_of_ok howners]
  cases found with
  | none =>
    -- a rule opens every record
    exact ⟨none, rfl, fun id owner => iff_of_true rfl ((hgrants id owner).2 (by simp))⟩
  | some owners =>
    refine ⟨_, Run.outcome_bind_of_ok hrecords _, fun id owner => ?_⟩
    rw [hgrants id owner, admits_some, Engine.matches_compiled]
    simp only [Option.some.injEq, forall_eq', Caller.userId]

/-- **A filter admits what some source grants**, where the access is permitted. -/
theorem exists_grants_compile {permission : ObjectPermission}
    (hpermission : (e.ask (.objectPermission subject.user collection)).outcome = .ok permission)
    (hknown : (s.permissionOf subject.user collection).bypasses access = true →
      permission.bypasses access = true) :
    ∃ f, (e.compile (.subject subject) tenant collection access).outcome = .ok f ∧
      ∀ id owner, admits f id owner = true ↔ permission.permits access = true ∧
        (permission.bypasses access = true ∨
          s.Grants e.settings.managerScope subject ⟨tenant, collection, id, owner⟩ access) := by
  rw [Engine.compile, Caller.userId, Run.outcome_bind_of_ok hpermission]
  -- where a branch is taken, what it filters is settled by what it looked at
  by_cases hpermits : permission.permits access = true
  · rw [if_neg (by simp [hpermits])]
    simp only [and_iff_right hpermits]
    split
    · exact ⟨_, rfl, fun _ _ => iff_of_true rfl (.inl ‹_›)⟩
    · rename_i hbypass
      simp only [or_iff_right hbypass]
      rw [Run.outcome_bind_of_ok (outcome_defaultAccess (he (.orgWideDefault _ _) trivial))]
      split
      · exact ⟨_, rfl, fun _ _ => iff_of_true rfl (.orgWideDefault ‹_›)⟩
      · rename_i hdefault
        exact exists_grants_compileRecords he subject tenant collection access
          (mt hknown hbypass) hdefault
  · rw [if_pos (by simp [hpermits])]
    exact ⟨_, rfl, fun _ _ => iff_of_false Bool.false_ne_true fun h => hpermits h.1⟩

end Collected

end Store

end RecordAccess
