import RecordAccess.Proofs.Widening

/-!
# Stronger and weaker accesses

Reading is the weakest access: what gives another access to a record gives reading as well, with one
exception, the bypass for editing and deleting (`Store.Grants.read`).  Editing and deleting are of
one strength: every source treats them alike, and only the object permission tells them apart
(`Engine.decide_delete`, `Engine.compile_delete`).

The rule or the share that grants an access need not be the one that grants a weaker access, since
those that are too weak are passed over.  So decisions are compared by what they grant, and only
editing and deleting by their reasons (`Store.access_types_are_ordered`).
-/

namespace RecordAccess

/-! ### Reading is the weakest access -/

theorem AccessLevel.satisfies_read (l : AccessLevel) : l.satisfies .read = true := by
  cases l <;> rfl

theorem DefaultAccess.grants_read {d : DefaultAccess} {access : AccessType}
    (h : d.grants access = true) : d.grants .read = true := by
  cases d with
  | privateAccess => cases h
  | publicRead => rfl
  | publicReadWrite => rfl

namespace Store

variable {s : Store} {settings : EngineSettings} {scope : ManagerScope} {subject : AccessSubject}
  {record : Record} {access : AccessType}

theorem RuleGrants.read {r : SharingRule} (h : s.RuleGrants subject record access r) :
    s.RuleGrants subject record .read r :=
  ⟨h.tenant, h.collection, h.active, r.level.satisfies_read, h.recipient, h.opens⟩

theorem ShareGrants.read {recipients : ShareSubject → Prop} {share : RecordShare}
    (h : ShareGrants recipients record access share) : ShareGrants recipients record .read share :=
  ⟨h.tenant, h.collection, h.record, share.level.satisfies_read, h.recipient⟩

/-- **What grants an access grants reading**, apart from the bypass for editing and deleting. -/
theorem Grants.read
    (hmodify : (s.permissionOf subject.user record.collection).canModifyAll = false)
    (h : s.Grants scope subject record access) : s.Grants scope subject record .read := by
  cases h with
  | bypass h =>
    cases access with
    | read => exact .bypass h
    | edit => exact absurd (hmodify.symm.trans h) Bool.false_ne_true
    | delete => exact absurd (hmodify.symm.trans h) Bool.false_ne_true
  | orgWideDefault h => exact .orgWideDefault (DefaultAccess.grants_read h)
  | ownership h => exact .ownership h
  | manager owner ho h => exact .manager owner ho h
  | rule r hr h => exact .rule r hr h.read
  | recordShare share hs h => exact .recordShare share hs h.read
  | groupShare share hs h => exact .groupShare share hs h.read

/-- A caller who may read and has no bypass may read what they may access in any way. -/
theorem Consistent.isGranted_read (hs : s.Consistent) (hp : s.failing = []) {caller : Caller}
    (hread : (s.permissionOf caller.userId record.collection).permits .read = true)
    (hmodify : (s.permissionOf caller.userId record.collection).canModifyAll = false)
    (h : ((s.engine settings).evaluateFor caller record access).IsGranted) :
    ((s.engine settings).evaluateFor caller record .read).IsGranted := by
  have hsubject : ∀ subject : AccessSubject, subject.user = caller.userId →
      ((s.engine settings).evaluateFor (.subject subject) record access).IsGranted →
        ((s.engine settings).evaluateFor (.subject subject) record .read).IsGranted := by
    intro subject huser hgranted
    obtain ⟨-, hgrants⟩ := (hs.isGranted_evaluateAs hp subject).1 hgranted
    rw [← huser] at hread hmodify
    exact (hs.isGranted_evaluateAs hp subject).2 ⟨hread, hgrants.read hmodify⟩
  cases caller with
  | subject subject => exact hsubject subject rfl h
  | user user =>
    obtain ⟨subject, hresolves, hiff⟩ := exists_resolved hp settings user
    exact (hiff record .read).2 (hsubject subject hresolves.same_user ((hiff record access).1 h))

end Store

/-! ### Editing and deleting are of one strength -/

theorem AccessLevel.satisfies_delete (l : AccessLevel) :
    l.satisfies .delete = l.satisfies .edit := by
  cases l <;> rfl

theorem DefaultAccess.grants_delete (d : DefaultAccess) : d.grants .delete = d.grants .edit := by
  cases d <;> rfl

theorem applicable_delete (rules : List SharingRule) (subject : AccessSubject) :
    applicable rules subject .delete = applicable rules subject .edit := by
  simp only [applicable, SharingRule.appliesTo, AccessLevel.satisfies_delete]

theorem RecordShare.gives_delete (share : RecordShare) (tenant : TenantId) :
    share.gives tenant .delete = share.gives tenant .edit := by
  simp only [gives, AccessLevel.satisfies_delete]

namespace Engine

variable {e : Engine} {caller : Caller} {tenant : TenantId} {collection : CollectionId}
  {record : Record}

theorem decideRecord_delete :
    e.decideRecord caller record .delete = e.decideRecord caller record .edit := by
  simp only [decideRecord, grantingRule, grantingShare, applicable_delete,
    RecordShare.gives_delete]

theorem compileRecords_delete :
    e.compileRecords caller tenant collection .delete =
      e.compileRecords caller tenant collection .edit := by
  simp only [compileRecords, sharedOwners, sharedRecords, applicable_delete,
    AccessLevel.satisfies_delete]

/-- **Deleting is decided as editing** where the permission has both flags or neither. -/
theorem decide_delete
    (h : ∀ permission, (e.ask (.objectPermission caller.userId record.collection)).outcome =
      .ok permission → permission.canEdit = permission.canDelete) :
    e.decide caller record .delete = e.decide caller record .edit := by
  refine Run.bind_congr_of_ok fun permission hpermission => ?_
  have hpermits : permission.permits .delete = permission.permits .edit :=
    (h permission hpermission).symm
  have hbypasses : permission.bypasses .delete = permission.bypasses .edit := rfl
  simp only [hpermits, hbypasses, DefaultAccess.grants_delete, decideRecord_delete]
  rfl

/-- **A filter for deleting is the one for editing**, under the same condition. -/
theorem compile_delete
    (h : ∀ permission, (e.ask (.objectPermission caller.userId collection)).outcome =
      .ok permission → permission.canEdit = permission.canDelete) :
    e.compile caller tenant collection .delete = e.compile caller tenant collection .edit := by
  refine Run.bind_congr_of_ok fun permission hpermission => ?_
  have hpermits : permission.permits .delete = permission.permits .edit :=
    (h permission hpermission).symm
  have hbypasses : permission.bypasses .delete = permission.bypasses .edit := rfl
  simp only [hpermits, hbypasses, DefaultAccess.grants_delete, compileRecords_delete]

end Engine

/-! ### The order of accesses -/

namespace Store

/-- **Access types are ordered.**  While no provider fails, a caller who may read a collection and
has no bypass for changing it is granted reading where another access is granted, and a filter for
reading admits what the filter for another access admits.

Whichever providers fail, a caller who may both edit and delete or neither is given one decision for
the two, with the same reason or the same error, and one filter.

A caller is a user (`Engine.evaluate`, `Engine.filter`) or a subject (`Engine.evaluateAs`,
`Engine.filterAs`). -/
theorem access_types_are_ordered (history : List Mutation) (settings : EngineSettings)
    (caller : Caller) (tenant : TenantId) (collection : CollectionId) :
    let s := ofHistory history
    let e := s.engine settings
    let permission := s.permissionOf caller.userId collection
    (s.failing = [] → permission.permits .read = true → permission.canModifyAll = false →
      ∀ access record owner,
        ((e.evaluateFor caller ⟨tenant, collection, record, owner⟩ access).IsGranted →
          (e.evaluateFor caller ⟨tenant, collection, record, owner⟩ .read).IsGranted) ∧
        ((e.filterFor caller tenant collection access).Admits record owner →
          (e.filterFor caller tenant collection .read).Admits record owner)) ∧
    (permission.canEdit = permission.canDelete →
      (∀ record owner,
        (e.evaluateFor caller ⟨tenant, collection, record, owner⟩ .edit).outcome =
          (e.evaluateFor caller ⟨tenant, collection, record, owner⟩ .delete).outcome) ∧
      (e.filterFor caller tenant collection .edit).outcome =
        (e.filterFor caller tenant collection .delete).outcome) := by
  intro s e permission
  have hs := consistent_ofHistory history
  refine ⟨fun hp hread hmodify access record owner => ⟨fun h => ?_, fun h => ?_⟩,
    fun hflags => ?_⟩
  · exact hs.isGranted_read hp hread hmodify h
  · rw [hs.admits_filterFor hp] at h ⊢
    exact hs.isGranted_read hp hread hmodify h
  · -- editing and deleting differ only in which flag they look at
    have hasked : ∀ p, (e.ask (.objectPermission caller.userId collection)).outcome = .ok p →
        p.canEdit = p.canDelete := by
      intro p hp
      obtain ⟨-, rfl⟩ := engine_ask_eq_ok.1 hp
      exact hflags
    refine ⟨fun record owner => ?_, ?_⟩
    · rw [Engine.outcome_evaluateFor, Engine.outcome_evaluateFor, Engine.decide_delete hasked]
    · rw [Engine.outcome_filterFor, Engine.outcome_filterFor, Engine.compile_delete hasked]

/-- A private collection where a first rule lets a group read, and a second one lets it write, the
records of one owner. -/
def twoLevels : List Mutation :=
  [.orgWideDefault ⟨⟨"t"⟩, ⟨"c"⟩, .privateAccess⟩,
    .rule (.make ⟨"reading", default⟩ ⟨"t"⟩ ⟨"c"⟩ (.ownerBased (.user ⟨"bob"⟩)) (.group ⟨"g"⟩)
      .read),
    .rule (.make ⟨"writing", default⟩ ⟨"t"⟩ ⟨"c"⟩ (.ownerBased (.user ⟨"bob"⟩)) (.group ⟨"g"⟩)
      .readWrite),
    .membership (.ofUser ⟨"g"⟩ ⟨"ann"⟩)]

/-- Editing is granted by the second rule, so reading is granted and deleting is granted by the same
rule.  Without an answer from the groups, deleting fails as editing does. -/
theorem second_rule_reads_and_deletes :
    let s := ofHistory twoLevels
    let e := s.engine ⟨10, .direct⟩
    let e' := (ofHistory (twoLevels ++ [.failProvider .groups])).engine ⟨10, .direct⟩
    let record : Record := ⟨⟨"t"⟩, ⟨"c"⟩, ⟨"r"⟩, some ⟨"bob"⟩⟩
    s.failing = [] ∧ (s.permissionOf ⟨"ann"⟩ ⟨"c"⟩).permits .read = true ∧
      (s.permissionOf ⟨"ann"⟩ ⟨"c"⟩).canModifyAll = false ∧
      (e.evaluate ⟨"ann"⟩ record .edit).outcome = .ok (.granted (.sharingRule "writing")) ∧
      (e.evaluate ⟨"ann"⟩ record .read).IsGranted ∧
      (e.filter ⟨"ann"⟩ ⟨"t"⟩ ⟨"c"⟩ .read).Admits ⟨"r"⟩ (some ⟨"bob"⟩) ∧
      (e.evaluate ⟨"ann"⟩ record .delete).outcome = .ok (.granted (.sharingRule "writing")) ∧
      (e'.evaluate ⟨"ann"⟩ record .delete).outcome =
        .error (.providerUnavailable "group_membership" "injected failure") := by
  intro s e e' record
  have hedit : (e.evaluate ⟨"ann"⟩ record .edit).outcome =
      .ok (.granted (.sharingRule "writing")) := rfl
  have hedit' : (e'.evaluate ⟨"ann"⟩ record .edit).outcome =
      .error (.providerUnavailable "group_membership" "injected failure") := rfl
  obtain ⟨hread, hdelete⟩ :=
    access_types_are_ordered twoLevels ⟨10, .direct⟩ (.user ⟨"ann"⟩) ⟨"t"⟩ ⟨"c"⟩
  obtain ⟨-, hdelete'⟩ := access_types_are_ordered (twoLevels ++ [.failProvider .groups])
    ⟨10, .direct⟩ (.user ⟨"ann"⟩) ⟨"t"⟩ ⟨"c"⟩
  obtain ⟨hgranted, hadmits⟩ := hread rfl rfl rfl .edit ⟨"r"⟩ (some ⟨"bob"⟩)
  refine ⟨rfl, rfl, rfl, hedit, hgranted ⟨_, hedit, rfl⟩, hadmits ?_, ?_, ?_⟩
  · exact ⟨some ⟨[.ownerEq ⟨"ann"⟩, .ownerIn [⟨"bob"⟩]]⟩, rfl, by decide⟩
  · exact ((hdelete rfl).1 ⟨"r"⟩ (some ⟨"bob"⟩)).symm.trans hedit
  · exact ((hdelete' rfl).1 ⟨"r"⟩ (some ⟨"bob"⟩)).symm.trans hedit'

end Store

end RecordAccess
