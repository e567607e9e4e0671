import RecordAccess.Proofs.Compilation
import RecordAccess.Proofs.Reordering

/-!
# The clauses of a compiled filter

A filter that looks at single records consists of one clause for ownership and of up to three lists:
the reports of a manager, the owners whose records rules open, and the records that are shared.
Each list has every value once, in increasing order (`Lists`), so the contents of a store determine
the filter (`Store.FilterOf`, `Store.FilterOf.unique`).  Whatever was put in earlier or later, or
repeatedly, does not show in it (`Store.filterAs_is_canonical`).
-/

namespace RecordAccess

/-! ### Lists of values -/

/-- Texts list the ids with a property, each once and in increasing order of their bytes. -/
structure Lists {kind : IdKind} (texts : List String) (P : Id kind → Prop) : Prop where
  increasing : texts.Pairwise fun t u => Text.bytes t < Text.bytes u
  mem_iff : ∀ id : Id kind, id.text ∈ texts ↔ P id

namespace Lists

variable {kind : IdKind} {texts texts' : List String} {P : Id kind → Prop}

theorem sortedSet {ids : List (Id kind)} (h : ∀ id, id ∈ ids ↔ P id) :
    Lists (Text.sortedSet (ids.map (·.text))) P where
  increasing := (Text.pairwise_sortedSet _).imp Text.bytes_lt
  mem_iff id := by rw [Text.mem_sortedSet, Id.mem_map_text, h]

theorem unique (h' : Lists texts' P) (h : Lists texts P) : texts' = texts := by
  have hne : ∀ {t u : String}, Text.bytes t < Text.bytes u → t ≠ u := by
    rintro t _ hlt rfl
    exact List.lt_irrefl _ hlt
  have hperm : texts'.Perm texts := by
    rw [List.perm_ext_iff_of_nodup (h'.increasing.imp hne) (h.increasing.imp hne)]
    intro t
    exact (h'.mem_iff ⟨t⟩).trans (h.mem_iff ⟨t⟩).symm
  exact hperm.eq_of_pairwise (fun _ _ _ _ hlt hgt => absurd hgt (List.lt_asymm hlt))
    h'.increasing h.increasing

end Lists

/-- The clause that looks for a column among some values; without values there is none. -/
def FilterClause.among (column : FilterColumn) (values : List String) : List FilterClause :=
  if values = [] then [] else [⟨column, .isIn, values⟩]

theorem Text.sortedSet_eq_nil {ts : List String} : sortedSet ts = [] ↔ ts = [] := by
  simp only [List.eq_nil_iff_forall_not_mem, mem_sortedSet]

namespace Engine

theorem unlessEmpty_ownerIn (users : List UserId) :
    unlessEmpty FilterClause.ownerIn users =
      FilterClause.among .owner (Text.sortedSet (users.map (·.text))) := by
  simp only [unlessEmpty, FilterClause.among, Text.sortedSet_eq_nil, List.map_eq_nil_iff,
    List.isEmpty_iff, FilterClause.ownerIn]

theorem unlessEmpty_idIn (records : List RecordId) :
    unlessEmpty FilterClause.idIn records =
      FilterClause.among .id (Text.sortedSet (records.map (·.text))) := by
  simp only [unlessEmpty, FilterClause.among, Text.sortedSet_eq_nil, List.map_eq_nil_iff,
    List.isEmpty_iff, FilterClause.idIn]

end Engine

/-! ### What a filter is made of -/

/-- A rule gives a subject an access to what it opens in a collection. -/
structure SharingRule.Applies (subject : AccessSubject) (tenant : TenantId)
    (collection : CollectionId) (access : AccessType) (r : SharingRule) : Prop where
  active : r.active = true
  level : r.level.satisfies access = true
  recipient : subject.BelongsTo tenant r.sharedTo
  tenant : r.tenant = tenant
  collection : r.collection = collection

namespace Store

variable (s : Store) (subject : AccessSubject) (tenant : TenantId) (collection : CollectionId)
  (access : AccessType)

/-- Some rule that applies opens the collection by criteria. -/
def OpensAll : Prop :=
  ∃ r ∈ s.rules, r.Applies subject tenant collection access ∧
    ∃ criteria, r.kind = .criteriaBased criteria

/-- Some rule that applies shares the records of a principal that a user is among. -/
def OpensOwner (u : UserId) : Prop :=
  ∃ r ∈ s.rules, r.Applies subject tenant collection access ∧
    ∃ sharedFrom, r.kind = .ownerBased sharedFrom ∧ s.Contains tenant sharedFrom u

/-- Some share gives a subject, or one of their groups, an access to a record. -/
def SharesRecord (id : RecordId) : Prop :=
  ∃ share ∈ s.shares, share.tenant = tenant ∧ share.collection = collection ∧ share.record = id ∧
    share.level.satisfies access = true ∧
    (share.sharedWith = .user subject.user ∨ ∃ g ∈ subject.groups, share.sharedWith = .group g)

/-- The filter by single records that the contents of a store call for: none where a rule opens the
collection, and otherwise the records that the subject owns, those of reports, those that rules open
by owner, and those that are shared. -/
inductive FilterOf (scope : ManagerScope) : Option SharingPredicate → Prop
  | unrestricted (h : s.OpensAll subject tenant collection access) : FilterOf scope none
  | restricted (h : ¬ s.OpensAll subject tenant collection access)
    (reports owners records : List String)
    (hreports : Lists reports fun u => scope.Reaches s.ManagedBy u subject.user)
    (howners : Lists owners (s.OpensOwner subject tenant collection access))
    (hrecords : Lists records (s.SharesRecord subject tenant collection access)) :
    FilterOf scope (some ⟨⟨.owner, .eq, [subject.user.text]⟩ ::
      (FilterClause.among .owner reports ++ FilterClause.among .owner owners ++
        FilterClause.among .id records)⟩)

variable {s subject tenant collection access} {scope : ManagerScope} {e : Engine}

/-- **A store calls for one filter.** -/
theorem FilterOf.unique {f' f : Option SharingPredicate}
    (h' : s.FilterOf subject tenant collection access scope f')
    (h : s.FilterOf subject tenant collection access scope f) : f' = f := by
  cases h' with
  | unrestricted hopens =>
    cases h with
    | unrestricted => rfl
    | restricted hnot => exact absurd hopens hnot
  | restricted hnot reports' owners' records' hreports' howners' hrecords' =>
    cases h with
    | unrestricted hopens => exact absurd hopens hnot
    | restricted _ reports owners records hreports howners hrecords =>
      rw [hreports'.unique hreports, howners'.unique howners, hrecords'.unique hrecords]

/-! ### The filter that is compiled -/

theorem ruleGrants_iff_applies {r : SharingRule} {id : RecordId} {owner : Option UserId} :
    s.RuleGrants subject ⟨tenant, collection, id, owner⟩ access r ↔
      r.Applies subject tenant collection access ∧
        s.Opens ⟨tenant, collection, id, owner⟩ r.kind :=
  ⟨fun h => ⟨⟨h.active, h.level, h.recipient, h.tenant, h.collection⟩, h.opens⟩,
    fun ⟨h, hopens⟩ => ⟨h.tenant, h.collection, h.active, h.level, h.recipient, hopens⟩⟩

theorem exists_ruleGrants_unowned (id : RecordId) :
    (∃ r ∈ s.rules, s.RuleGrants subject ⟨tenant, collection, id, none⟩ access r) ↔
      s.OpensAll subject tenant collection access := by
  refine exists_congr fun r => and_congr_right fun _ => ?_
  rw [ruleGrants_iff_applies]
  cases r.kind <;> simp [Opens]

theorem exists_ruleGrants_owned (id : RecordId) {u : UserId}
    (h : ¬ s.OpensAll subject tenant collection access) :
    (∃ r ∈ s.rules, s.RuleGrants subject ⟨tenant, collection, id, some u⟩ access r) ↔
      s.OpensOwner subject tenant collection access u := by
  refine exists_congr fun r => and_congr_right fun hr => ?_
  rw [ruleGrants_iff_applies]
  refine and_congr_right fun happlies => ?_
  cases hkind : r.kind with
  | criteriaBased criteria => exact absurd ⟨r, hr, happlies, criteria, hkind⟩ h
  | ownerBased sharedFrom => simp [Opens]

theorem exists_shareGrants {id : RecordId} :
    ((∃ share ∈ s.shares, ShareGrants (fun w => w = .user subject.user)
        ⟨tenant, collection, id, none⟩ access share) ∨
      ∃ share ∈ s.shares, ShareGrants (fun w => ∃ g ∈ subject.groups, w = .group g)
        ⟨tenant, collection, id, none⟩ access share) ↔
      s.SharesRecord subject tenant collection access id := by
  constructor
  · rintro (⟨share, hs, h⟩ | ⟨share, hs, h⟩)
    · exact ⟨share, hs, h.tenant, h.collection, h.record, h.level, .inl h.recipient⟩
    · exact ⟨share, hs, h.tenant, h.collection, h.record, h.level, .inr h.recipient⟩
  · rintro ⟨share, hs, ht, hc, hr, hl, hw | hw⟩
    · exact .inl ⟨share, hs, ht, hc, hr, hl, hw⟩
    · exact .inr ⟨share, hs, ht, hc, hr, hl, hw⟩

/-- **The filter that is compiled is the one that the store calls for.** -/
theorem exists_filterOf (he : e.AnsweredFrom s Query.IsCollective) (subject : AccessSubject)
    (tenant : TenantId) (collection : CollectionId) (access : AccessType) :
    ∃ f, (e.compileRecords (.subject subject) tenant collection access).outcome = .ok f ∧
      s.FilterOf subject tenant collection access e.settings.managerScope f := by
  obtain ⟨reports, hreports, hmanages⟩ := exists_subordinates he subject.user
  obtain ⟨found, howners, hopens⟩ := exists_sharedOwners he subject tenant collection access
  obtain ⟨records, hrecords, hshares⟩ := exists_sharedRecords he subject tenant collection access
  have hopensAll : s.OpensAll subject tenant collection access ↔ found = none := by
    rw [← exists_ruleGrants_unowned default, ← hopens]
    cases found <;> simp
  rw [Engine.compileRecords, Caller.userId, Run.outcome_bind_of_ok hreports,
    Run.outcome_bind_of_ok howners]
  cases found with
  | none => exact ⟨none, rfl, .unrestricted (hopensAll.2 rfl)⟩
  | some owners =>
    -- without criteria, the rules that open a record are those that share its owner's
    have hnot : ¬ s.OpensAll subject tenant collection access := by simp [hopensAll]
    refine ⟨_, Run.outcome_bind_of_ok hrecords _, ?_⟩
    rw [Engine.unlessEmpty_ownerIn, Engine.unlessEmpty_ownerIn, Engine.unlessEmpty_idIn]
    refine .restricted hnot _ _ _ (.sortedSet hmanages) (.sortedSet fun u => ?_)
      (.sortedSet fun id => ?_)
    · rw [← exists_ruleGrants_owned default hnot, ← hopens]
      simp
    · rw [hshares id none, exists_shareGrants]

theorem answeredFrom_collective {settings : EngineSettings} (hp : s.failing = []) :
    (s.engine settings).AnsweredFrom s Query.IsCollective :=
  answeredFrom_engine settings fun c _ => by simp [hp]

/-- A filter is compiled from single records where the access is permitted and nothing else lifts
the restriction. -/
theorem outcome_filterAs {settings : EngineSettings} (hp : s.failing = []) :
    ((s.engine settings).filterAs subject tenant collection access).outcome =
      if !(s.permissionOf subject.user collection).permits access then .ok (some .nothing)
      else if (s.permissionOf subject.user collection).bypasses access then .ok none
      else if (s.defaultOf tenant collection).grants access then .ok none
      else ((s.engine settings).compileRecords (.subject subject) tenant collection
        access).outcome := by
  have hpermission : ((s.engine settings).ask (.objectPermission subject.user collection)).outcome =
      .ok (s.permissionOf subject.user collection) := engine_ask (by simp [hp])
  have hdefault := outcome_defaultAccess (e := s.engine settings) (s := s)
    (engine_ask (c := .orgWideDefault tenant collection) (by simp [hp]))
  rw [Engine.filterAs, Engine.outcome_filterFor, Engine.compile, Caller.userId,
    Run.outcome_bind_of_ok hpermission]
  simp only [apply_ite Run.outcome, Run.outcome_bind_of_ok hdefault, Run.outcome_pure]

/-! ### The filter of what a store holds -/

namespace Rearranges

variable {s' : Store} (h : s'.Rearranges s) (hp' : s'.failing = []) (hp : s.failing = [])

include h hp' hp

theorem contains_eq : s'.Contains = s.Contains := by
  funext t p u
  exact propext ⟨(h.symm.extends_of_failing hp hp').contains,
    (h.extends_of_failing hp' hp).contains⟩

/-- **Stores that hold the same call for the same filter.** -/
theorem filterOf {f : Option SharingPredicate}
    (hf : s'.FilterOf subject tenant collection access scope f) :
    s.FilterOf subject tenant collection access scope f := by
  have hall : s'.OpensAll subject tenant collection access ↔
      s.OpensAll subject tenant collection access := by
    simp only [OpensAll, h.rules _]
  cases hf with
  | unrestricted hopens => exact .unrestricted (hall.1 hopens)
  | restricted hnot reports owners records hreports howners hrecords =>
    refine .restricted (mt hall.2 hnot) reports owners records ?_ ?_ ?_
    · rwa [← h.managedBy_eq]
    · refine ⟨howners.increasing, fun u => (howners.mem_iff u).trans ?_⟩
      simp only [OpensOwner, h.rules _, h.contains_eq hp' hp]
    · refine ⟨hrecords.increasing, fun id => (hrecords.mem_iff id).trans ?_⟩
      simp only [SharesRecord, h.shares _]

/-- **Stores that hold the same give subjects the same filters.** -/
theorem outcome_filterAs (settings : EngineSettings) (subject : AccessSubject) (tenant : TenantId)
    (collection : CollectionId) (access : AccessType) :
    ((s'.engine settings).filterAs subject tenant collection access).outcome =
      ((s.engine settings).filterAs subject tenant collection access).outcome := by
  obtain ⟨f', hf', hfilter'⟩ :=
    exists_filterOf (answeredFrom_collective hp') subject tenant collection access
  obtain ⟨f, hf, hfilter⟩ :=
    exists_filterOf (answeredFrom_collective hp) subject tenant collection access
  rw [Store.outcome_filterAs hp', Store.outcome_filterAs hp, h.permission, h.orgWideDefault, hf',
    hf, (h.filterOf hp' hp hfilter').unique hfilter]

/-- Users resolve to the same subjects, so they are given the same filters too. -/
theorem outcome_filter (settings : EngineSettings) (user : UserId) (tenant : TenantId)
    (collection : CollectionId) (access : AccessType) :
    ((s'.engine settings).filter user tenant collection access).outcome =
      ((s.engine settings).filter user tenant collection access).outcome := by
  obtain ⟨subject, -, hresolves⟩ :=
    exists_resolveSubject settings (s := s) (by simp [hp]) (by simp [hp]) user
  have hresolves' := hresolves.of_eq (h.user user) h.memberships
  calc ((s'.engine settings).filter user tenant collection access).outcome
      = ((s'.engine settings).filterAs subject tenant collection access).outcome :=
        (hresolves'.standsFor.filterFor tenant collection access).outcome_eq (by simp [hp'])
    _ = ((s.engine settings).filterAs subject tenant collection access).outcome :=
        h.outcome_filterAs hp' hp settings subject tenant collection access
    _ = ((s.engine settings).filter user tenant collection access).outcome :=
        ((hresolves.standsFor.filterFor tenant collection access).outcome_eq (by simp [hp])).symm

end Rearranges

/-- **A filter is determined by what a store holds.**  Where the access is permitted, and neither
the bypass nor the default nor a rule by criteria lifts the restriction, a subject's filter looks
for records of the subject, of those who report to the subject, of those whose records rules share,
and for the records that are shared, each of the last three only if there are any, every value once
and in increasing order.

So it does not matter in which order the same things are put in, or whether they are put in
again. -/
theorem filterAs_is_canonical (history : List Mutation) (hp : (ofHistory history).failing = [])
    (settings : EngineSettings) (tenant : TenantId) (collection : CollectionId)
    (access : AccessType) :
    let s := ofHistory history
    let e := s.engine settings
    (∀ subject, (s.permissionOf subject.user collection).permits access = true →
      (s.permissionOf subject.user collection).bypasses access = false →
      (s.defaultOf tenant collection).grants access = false →
      ¬ s.OpensAll subject tenant collection access →
      ∃ reports owners records,
        Lists reports (fun u => settings.managerScope.Reaches s.ManagedBy u subject.user) ∧
        Lists owners (s.OpensOwner subject tenant collection access) ∧
        Lists records (s.SharesRecord subject tenant collection access) ∧
        (e.filterAs subject tenant collection access).outcome =
          .ok (some ⟨⟨.owner, .eq, [subject.user.text]⟩ :: (FilterClause.among .owner reports ++
            FilterClause.among .owner owners ++ FilterClause.among .id records)⟩)) ∧
    ∀ base changes changes', history = base ++ changes → SetOnce changes →
      SameMembers changes' changes → (ofHistory (base ++ changes')).failing = [] →
      let e' := (ofHistory (base ++ changes')).engine settings
      (∀ subject, (e'.filterAs subject tenant collection access).outcome =
          (e.filterAs subject tenant collection access).outcome) ∧
        ∀ user, (e'.filter user tenant collection access).outcome =
          (e.filter user tenant collection access).outcome := by
  intro s e
  constructor
  · intro subject hpermits hbypass hdefault hnot
    -- nothing lifts the restriction, so the filter is the one by single records
    obtain ⟨f, hf, hfilter⟩ :=
      exists_filterOf (answeredFrom_collective hp) subject tenant collection access
    have houtcome : (e.filterAs subject tenant collection access).outcome = .ok f := by
      rw [outcome_filterAs hp, hf]
      simp [s, hpermits, hbypass, hdefault]
    cases hfilter with
    | unrestricted hopens => exact absurd hopens hnot
    | restricted _ reports owners records hreports howners hrecords =>
      exact ⟨reports, owners, records, hreports, howners, hrecords, houtcome⟩
  · rintro base changes changes' rfl honce hsame hp' e'
    -- the same changes in another order rearrange the store
    have h := rearranges_append base hsame honce
    exact ⟨fun subject => h.outcome_filterAs hp' hp settings subject tenant collection access,
      fun user => h.outcome_filter hp' hp settings user tenant collection access⟩

/-- A private collection, and a lead and a rep who manage each other. -/
def ring : List Mutation :=
  [.orgWideDefault ⟨⟨"t"⟩, ⟨"c"⟩, .privateAccess⟩,
    .user ⟨⟨"lead"⟩, none, some ⟨"rep"⟩, none⟩, .user ⟨⟨"rep"⟩, none, some ⟨"lead"⟩, none⟩]

/-- A manager from elsewhere, a rule that shares what a nested group owns, and shares with the lead,
one of them too weak. -/
def sharing : List Mutation :=
  [.user ⟨⟨"new"⟩, none, some ⟨"rep"⟩, none⟩,
    .membership (.ofUser ⟨"team"⟩ ⟨"eve"⟩), .membership (.nested ⟨"desk"⟩ ⟨"team"⟩),
    .membership (.ofUser ⟨"desk"⟩ ⟨"amy"⟩),
    .rule (.make ⟨"rule", default⟩ ⟨"t"⟩ ⟨"c"⟩ (.ownerBased (.group ⟨"desk"⟩)) (.group ⟨"leads"⟩)
      .readWrite),
    .recordShare (.make ⟨"x", default⟩ ⟨"t"⟩ ⟨"c"⟩ ⟨"z"⟩ (.user ⟨"lead"⟩) .readWrite),
    .recordShare (.make ⟨"y", default⟩ ⟨"t"⟩ ⟨"c"⟩ ⟨"a"⟩ (.group ⟨"leads"⟩) .readWrite),
    .recordShare (.make ⟨"w", default⟩ ⟨"t"⟩ ⟨"c"⟩ ⟨"b"⟩ (.user ⟨"lead"⟩) .read)]

/-- Put in backwards and then again, the same things give the lead the same filter. -/
theorem lead_filter_in_any_order :
    let s := ofHistory (ring ++ sharing)
    let again := sharing.reverse ++ sharing
    let lead : AccessSubject := ⟨⟨"lead"⟩, none, none, [⟨"leads"⟩]⟩
    s.failing = [] ∧ (s.permissionOf ⟨"lead"⟩ ⟨"c"⟩).permits .edit = true ∧
      (s.permissionOf ⟨"lead"⟩ ⟨"c"⟩).bypasses .edit = false ∧
      (s.defaultOf ⟨"t"⟩ ⟨"c"⟩).grants .edit = false ∧ ¬ s.OpensAll lead ⟨"t"⟩ ⟨"c"⟩ .edit ∧
      SetOnce sharing ∧ SameMembers again sharing ∧ (ofHistory (ring ++ again)).failing = [] ∧
      Lists ["lead", "new", "rep"] (fun u => Relation.TransGen s.ManagedBy u ⟨"lead"⟩) ∧
      Lists ["amy", "eve"] (s.OpensOwner lead ⟨"t"⟩ ⟨"c"⟩ .edit) ∧
      Lists ["a", "z"] (s.SharesRecord lead ⟨"t"⟩ ⟨"c"⟩ .edit) ∧
      (((ofHistory (ring ++ again)).engine ⟨5, .transitive⟩).filterAs lead ⟨"t"⟩ ⟨"c"⟩
        .edit).outcome = .ok (some ⟨[⟨.owner, .eq, ["lead"]⟩,
          ⟨.owner, .isIn, ["lead", "new", "rep"]⟩, ⟨.owner, .isIn, ["amy", "eve"]⟩,
          ⟨.id, .isIn, ["a", "z"]⟩]⟩) := by
  intro s again lead
  have hnot : ¬ s.OpensAll lead ⟨"t"⟩ ⟨"c"⟩ .edit := by
    rintro ⟨r, hr, -, criteria, hkind⟩
    change r ∈ [_] at hr
    obtain rfl := List.mem_singleton.1 hr
    cases hkind
  have honce : SetOnce sharing := setOnce_of_nodup (by decide)
  have hsame : SameMembers again sharing := fun m => by simp [again]
  have hfilter : (((ofHistory (ring ++ sharing)).engine ⟨5, .transitive⟩).filterAs
      ⟨⟨"lead"⟩, none, none, [⟨"leads"⟩]⟩ ⟨"t"⟩ ⟨"c"⟩ .edit).outcome =
      .ok (some ⟨[⟨.owner, .eq, ["lead"]⟩, ⟨.owner, .isIn, ["lead", "new", "rep"]⟩,
        ⟨.owner, .isIn, ["amy", "eve"]⟩, ⟨.id, .isIn, ["a", "z"]⟩]⟩) := by
    rfl
  obtain ⟨hclauses, horder⟩ := filterAs_is_canonical (ring ++ sharing) rfl ⟨5, .transitive⟩ ⟨"t"⟩
    ⟨"c"⟩ .edit
  obtain ⟨reports, owners, records, hreports, howners, hrecords, houtcome⟩ :=
    hclauses lead rfl rfl rfl hnot
  -- the lists can be read off the clauses
  obtain ⟨rfl, rfl, rfl⟩ : reports = ["lead", "new", "rep"] ∧ owners = ["amy", "eve"] ∧
      records = ["a", "z"] := by
    have heq := houtcome.symm.trans hfilter
    cases reports <;> cases owners <;> cases records <;> simp_all [FilterClause.among]
  have hsubject := (horder ring sharing again rfl honce hsame rfl).1 lead
  exact ⟨rfl, rfl, rfl, rfl, hnot, honce, hsame, rfl, hreports, howners, hrecords,
    hsubject.trans hfilter⟩

end Store

end RecordAccess
