import RecordAccess.Proofs.Agreement
import RecordAccess.Proofs.Failures
import RecordAccess.Proofs.Policy
import RecordAccess.Proofs.Resolution

/-!
# Changes that only widen access

The sources of access are combined by "or" (`Store.Grants`), and each of them grants more when there
is more of what it looks at: rules, shares, memberships, users, flags.  A deployment that extends
another (`Deployment.Extends`) therefore grants all that the other grants, although it may give
another reason.  Changes that widen access (`Deployment.Widens`) extend a deployment, one by one and
in any number (`Deployment.extends_applyAll`), so they never take access away
(`Deployment.widening_keeps_access`).
-/

namespace RecordAccess

/-! ### Sources that grant -/

namespace Store

/-- Some source grants an access that the object permission permits. -/
inductive Grants (s : Store) (scope : ManagerScope) (subject : AccessSubject) (record : Record)
    (access : AccessType) : Prop
  | bypass (h : (s.permissionOf subject.user record.collection).bypasses access = true)
  | orgWideDefault (h : (s.defaultOf record.tenant record.collection).grants access = true)
  | ownership (h : record.owner = some subject.user)
  | manager (owner : UserId) (ho : record.owner = some owner)
    (h : scope.Reaches s.ManagedBy owner subject.user)
  | rule (r : SharingRule) (hr : r ∈ s.rules) (h : s.RuleGrants subject record access r)
  | recordShare (share : RecordShare) (hs : share ∈ s.shares)
    (h : ShareGrants (fun w => w = .user subject.user) record access share)
  | groupShare (share : RecordShare) (hs : share ∈ s.shares)
    (h : ShareGrants (fun w => ∃ g ∈ subject.groups, w = .group g) record access share)

variable {s : Store} {e : Engine} {settings : EngineSettings} {subject : AccessSubject}
  {record : Record} {access : AccessType}

theorem Consistent.exists_grants_decideRecord (hs : s.Consistent)
    (he : e.AnsweredFrom s Query.IsDecisive) (subject : AccessSubject) (record : Record)
    (access : AccessType)
    (hbypass : ¬ (s.permissionOf subject.user record.collection).bypasses access = true)
    (hdefault : ¬ (s.defaultOf record.tenant record.collection).grants access = true) :
    ∃ decision,
      (e.decideRecord (.subject subject) record access).outcome = .ok decision ∧
      (decision.isGranted = true ↔ s.Grants e.settings.managerScope subject record access) := by
  classical
  obtain ⟨manages, hmanages, hrecord⟩ := hs.exists_decideRecord he
    (fun r => decide_eq_true_iff (p := s.RuleGrants subject record access r))
    (fun share => decide_eq_true_iff
      (p := ShareGrants (fun w => w = .user subject.user) record access share))
    (fun share => decide_eq_true_iff
      (p := ShareGrants (fun w => ∃ g ∈ subject.groups, w = .group g) record access share))
  refine ⟨_, hrecord, ?_⟩
  simp only [Decision.isGranted_first, Bool.or_eq_true, decide_eq_true_eq, hmanages,
    Option.isSome_or, Option.isSome_map, List.find?_isSome]
  -- the sources of a decision are the ways to be granted, less those ruled out before
  constructor
  · rintro (((h | ⟨owner, ho, h⟩) | ⟨r, hr, h⟩) | ⟨share, hs, h⟩ | ⟨share, hs, h⟩)
    · exact .ownership h
    · exact .manager owner ho h
    · exact .rule r hr h
    · exact .recordShare share hs h
    · exact .groupShare share hs h
  · intro h
    cases h with
    | bypass h => exact absurd h hbypass
    | orgWideDefault h => exact absurd h hdefault
    | ownership h => exact .inl (.inl (.inl h))
    | manager owner ho h => exact .inl (.inl (.inr ⟨owner, ho, h⟩))
    | rule r hr h => exact .inl (.inr ⟨r, hr, h⟩)
    | recordShare share hs h => exact .inr (.inl ⟨share, hs, h⟩)
    | groupShare share hs h => exact .inr (.inr ⟨share, hs, h⟩)

/-- **An access is granted** when it is permitted and the bypass or some source grants it. -/
theorem Consistent.exists_grants_decide (hs : s.Consistent)
    (he : e.AnsweredFrom s Query.IsDecisive) {permission : ObjectPermission}
    (hpermission : (e.ask (.objectPermission subject.user record.collection)).outcome =
      .ok permission)
    (hknown : (s.permissionOf subject.user record.collection).bypasses access = true →
      permission.bypasses access = true) :
    ∃ decision, (e.decide (.subject subject) record access).outcome = .ok decision ∧
      (decision.isGranted = true ↔ permission.permits access = true ∧
        (permission.bypasses access = true ∨
          s.Grants e.settings.managerScope subject record access)) := by
  rw [Engine.decide, Caller.userId, Run.outcome_bind_of_ok hpermission]
  by_cases hpermits : permission.permits access = true
  · rw [if_neg (by simp [hpermits]), and_iff_right hpermits]
    split
    · exact ⟨_, rfl, iff_of_true rfl (.inl ‹_›)⟩
    · rename_i hbypass
      rw [Run.outcome_bind_of_ok (outcome_defaultAccess (he (.orgWideDefault _ _) trivial)),
        or_iff_right hbypass]
      split
      · exact ⟨_, rfl, iff_of_true rfl (.orgWideDefault ‹_›)⟩
      · rename_i hdefault
        exact hs.exists_grants_decideRecord he subject record access (mt hknown hbypass) hdefault
  · rw [if_pos (by simp [hpermits])]
    exact ⟨_, rfl, iff_of_false Bool.false_ne_true fun h => hpermits h.1⟩

end Store

/-! ### Subjects and permissions that extend others -/

/-- A permission has every flag that another has. -/
structure ObjectPermission.HasFlagsOf (p old : ObjectPermission) : Prop where
  canCreate : old.canCreate = true → p.canCreate = true
  canRead : old.canRead = true → p.canRead = true
  canEdit : old.canEdit = true → p.canEdit = true
  canDelete : old.canDelete = true → p.canDelete = true
  canViewAll : old.canViewAll = true → p.canViewAll = true
  canModifyAll : old.canModifyAll = true → p.canModifyAll = true

namespace ObjectPermission.HasFlagsOf

variable {p p' p'' : ObjectPermission}

protected theorem refl (p : ObjectPermission) : p.HasFlagsOf p := ⟨id, id, id, id, id, id⟩

protected theorem trans (h : p''.HasFlagsOf p') (h' : p'.HasFlagsOf p) : p''.HasFlagsOf p :=
  ⟨fun x => h.canCreate (h'.canCreate x), fun x => h.canRead (h'.canRead x),
    fun x => h.canEdit (h'.canEdit x), fun x => h.canDelete (h'.canDelete x),
    fun x => h.canViewAll (h'.canViewAll x), fun x => h.canModifyAll (h'.canModifyAll x)⟩

theorem permits (h : p'.HasFlagsOf p) {access : AccessType} (hp : p.permits access = true) :
    p'.permits access = true := by
  cases access with
  | read => exact h.canRead hp
  | edit => exact h.canEdit hp
  | delete => exact h.canDelete hp

theorem bypasses (h : p'.HasFlagsOf p) {access : AccessType} (hp : p.bypasses access = true) :
    p'.bypasses access = true := by
  cases access with
  | read => exact h.canViewAll hp
  | edit => exact h.canModifyAll hp
  | delete => exact h.canModifyAll hp

end ObjectPermission.HasFlagsOf

/-- A subject is the same user as another, with no other role and with more groups. -/
structure AccessSubject.Extends (subject' subject : AccessSubject) : Prop where
  same_user : subject'.user = subject.user
  role : ∀ r, subject.role = some r → subject'.role = some r ∧ subject'.tenant = subject.tenant
  groups : ∀ g ∈ subject.groups, g ∈ subject'.groups

namespace AccessSubject.Extends

variable {subject' subject : AccessSubject}

protected theorem refl (subject : AccessSubject) : subject.Extends subject :=
  ⟨rfl, fun _ h => ⟨h, rfl⟩, fun _ => id⟩

theorem belongsTo (h : subject'.Extends subject) {tenant : TenantId} {p : Principal}
    (hp : subject.BelongsTo tenant p) : subject'.BelongsTo tenant p := by
  cases p with
  | user id => exact Eq.trans hp h.same_user.symm
  | group g => exact h.groups g hp
  | queue g => exact h.groups g hp
  | role r =>
    obtain ⟨hrole, htenant⟩ := hp
    obtain ⟨hrole', hsame⟩ := h.role r hrole
    exact ⟨hrole', hsame ▸ htenant⟩

end AccessSubject.Extends

/-! ### Deployments that extend others -/

theorem ManagerScope.Reaches.mono {scope scope' : ManagerScope}
    {reports reports' : UserId → UserId → Prop}
    (hscope : scope = .transitive → scope' = .transitive)
    (hreports : ∀ u m, reports u m → reports' u m) {owner manager : UserId}
    (h : scope.Reaches reports owner manager) : scope'.Reaches reports' owner manager := by
  cases scope with
  | transitive =>
    rw [hscope rfl]
    exact Relation.TransGen.mono hreports _ _ h
  | direct =>
    cases scope' with
    | direct => exact hreports _ _ h
    | transitive => exact .single (hreports _ _ h)

/-- A deployment holds all that another holds, and permits and opens at least as much. -/
structure Deployment.Extends (d' d : Deployment) : Prop where
  users : ∀ u ∈ d.store.users, u ∈ d'.store.users
  memberships : ∀ m ∈ d.store.memberships, m ∈ d'.store.memberships
  rules : ∀ r ∈ d.store.rules, r ∈ d'.store.rules
  shares : ∀ share ∈ d.store.shares, share ∈ d'.store.shares
  permission : ∀ user collection, (d'.store.permissionOf user collection).HasFlagsOf
    (d.store.permissionOf user collection)
  orgWideDefault : ∀ tenant collection access,
    (d.store.defaultOf tenant collection).grants access = true →
      (d'.store.defaultOf tenant collection).grants access = true
  scope : d.settings.managerScope = .transitive → d'.settings.managerScope = .transitive
  depth : d.settings.maxGroupDepth ≤ d'.settings.maxGroupDepth
  failing : d'.store.failing = d.store.failing

namespace Deployment.Extends

variable {d d' d'' : Deployment} {subject subject' : AccessSubject} {record : Record}
  {access : AccessType}

protected theorem refl (d : Deployment) : d.Extends d :=
  ⟨fun _ => id, fun _ => id, fun _ => id, fun _ => id, fun _ _ => .refl _, fun _ _ _ => id, id,
    le_rfl, rfl⟩

protected theorem trans (h : d''.Extends d') (h' : d'.Extends d) : d''.Extends d where
  users u hu := h.users u (h'.users u hu)
  memberships m hm := h.memberships m (h'.memberships m hm)
  rules r hr := h.rules r (h'.rules r hr)
  shares share hs := h.shares share (h'.shares share hs)
  permission user collection := (h.permission user collection).trans (h'.permission user collection)
  orgWideDefault tenant collection access hg :=
    h.orgWideDefault tenant collection access (h'.orgWideDefault tenant collection access hg)
  scope hs := h.scope (h'.scope hs)
  depth := h'.depth.trans h.depth
  failing := h.failing.trans h'.failing

variable (h : d'.Extends d)

include h

theorem contains {tenant : TenantId} {p : Principal} {u : UserId}
    (hu : d.store.Contains tenant p u) : d'.store.Contains tenant p u := by
  have hmember : ∀ g, d.store.HasMember g u → d'.store.HasMember g u := by
    rintro g ⟨inner, hpath, hin⟩
    exact ⟨inner, Relation.ReflTransGen.mono (fun _ _ => h.memberships _) _ _ hpath,
      h.memberships _ hin⟩
  cases p with
  | user id => exact hu
  | group g => exact hmember g hu
  | queue g => exact hmember g hu
  | role r =>
    obtain ⟨x, hx, hid⟩ := hu
    exact ⟨x, h.users x hx, hid⟩

theorem ruleGrants (hs : subject'.Extends subject) {r : SharingRule}
    (hr : d.store.RuleGrants subject record access r) :
    d'.store.RuleGrants subject' record access r := by
  refine ⟨hr.tenant, hr.collection, hr.active, hr.level, hs.belongsTo hr.recipient, ?_⟩
  have hopens := hr.opens
  cases hkind : r.kind with
  | criteriaBased criteria => trivial
  | ownerBased sharedFrom =>
    rw [hkind] at hopens
    obtain ⟨owner, ho, hcontains⟩ := hopens
    exact ⟨owner, ho, h.contains hcontains⟩

/-- **Every source that grants still grants** in a deployment that extends another. -/
theorem grants (hs : subject'.Extends subject)
    (hg : d.store.Grants d.settings.managerScope subject record access) :
    d'.store.Grants d'.settings.managerScope subject' record access := by
  have hmanaged : ∀ u m, d.store.ManagedBy u m → d'.store.ManagedBy u m := by
    rintro u m ⟨x, hx, hm⟩
    exact ⟨x, h.users x hx, hm⟩
  have hrecipients : ∀ share, Store.ShareGrants (fun w => ∃ g ∈ subject.groups, w = .group g)
      record access share →
      Store.ShareGrants (fun w => ∃ g ∈ subject'.groups, w = .group g) record access share := by
    intro share hshare
    obtain ⟨g, hmem, hw⟩ := hshare.recipient
    exact ⟨hshare.tenant, hshare.collection, hshare.record, hshare.level, g, hs.groups g hmem, hw⟩
  -- each way to be granted stays open, since nothing it needs is taken away
  cases hg with
  | bypass hb =>
    refine .bypass ?_
    rw [hs.same_user]
    exact (h.permission _ _).bypasses hb
  | orgWideDefault hd => exact .orgWideDefault (h.orgWideDefault _ _ _ hd)
  | ownership ho => exact .ownership (ho.trans (congrArg some hs.same_user.symm))
  | manager owner ho hm =>
    refine .manager owner ho ?_
    rw [hs.same_user]
    exact hm.mono h.scope hmanaged
  | rule r hr hrule => exact .rule r (h.rules r hr) (h.ruleGrants hs hrule)
  | recordShare share hshare hgrants =>
    refine .recordShare share (h.shares share hshare) ?_
    rw [hs.same_user]
    exact hgrants
  | groupShare share hshare hgrants =>
    exact .groupShare share (h.shares share hshare) (hrecipients share hgrants)

theorem resolves (hd : d.store.Consistent) (hd' : d'.store.Consistent) {user : UserId}
    (hs : d.store.Resolves d.settings.maxGroupDepth user subject)
    (hs' : d'.store.Resolves d'.settings.maxGroupDepth user subject') :
    subject'.Extends subject := by
  refine ⟨hs'.same_user.trans hs.same_user.symm, fun r hr => ?_, fun g hg => ?_⟩
  · -- only a user in the directory has a role, and it is still there
    have hrole := hr
    rw [hs.role] at hrole
    obtain ⟨x, hx, hxr⟩ := Option.bind_eq_some_iff.1 hrole
    obtain ⟨hmem, hid⟩ := hd.find_user.1 hx
    have hx' := hd'.find_user.2 ⟨h.users x hmem, hid⟩
    rw [hs'.role, hs'.tenant, hs.tenant, hx, hx']
    exact ⟨hxr, rfl⟩
  · obtain ⟨n, hn, ha⟩ := hs.mem_groups.1 hg
    exact hs'.mem_groups.2 ⟨n, hn.trans h.depth, ha.mono h.memberships⟩

end Deployment.Extends

/-! ### Changes that widen access -/

namespace Store

variable {s : Store}

theorem permissionOf_apply_permission (user user' : UserId) (collection collection' : CollectionId)
    (p : ObjectPermission) :
    (s.apply (.permission user collection p)).permissionOf user' collection' =
      if (user', collection') = (user, collection) then p
      else s.permissionOf user' collection' := by
  have hput := find?_put Prod.fst (k := (user', collection'))
    (a := ((user, collection), p)) (l := s.permissions)
    fun e => decide_eq_true_iff (p := e.1 = (user', collection'))
  simp only [permissionOf, apply, lookup_eq_map_find?]
  rw [hput]
  by_cases heq : (user', collection') = (user, collection)
  · rw [if_pos heq, if_pos heq.symm]
    rfl
  · rw [if_neg heq, if_neg (Ne.symm heq)]

theorem defaultOf_apply_orgWideDefault (x : OrgWideDefault) (tenant : TenantId)
    (collection : CollectionId) :
    (s.apply (.orgWideDefault x)).defaultOf tenant collection =
      if (x.tenant, x.collection) = (tenant, collection) then x.access
      else s.defaultOf tenant collection := by
  have hput := find?_put (fun d : OrgWideDefault => (d.tenant, d.collection))
    (k := (tenant, collection)) (a := x) (l := s.orgWideDefaults)
    (p := fun d => d.tenant = tenant && d.collection = collection) fun d => by simp
  simp only [defaultOf, apply]
  rw [hput]
  by_cases heq : (x.tenant, x.collection) = (tenant, collection)
  · rw [if_pos heq, if_pos heq]
  · rw [if_neg heq, if_neg heq]

end Store

namespace Deployment

/-- A change can only widen access: it puts in a rule, a share, a membership or a new user, extends
what a permission or a default gives, or makes managers or nested groups reach further. -/
def Widens (d : Deployment) : Change → Prop
  | .store (.rule _) => True
  | .store (.recordShare _) => True
  | .store (.membership _) => True
  | .store (.user u) => ∀ x ∈ d.store.users, x.id ≠ u.id
  | .store (.permission user collection p) => p.HasFlagsOf (d.store.permissionOf user collection)
  | .store (.defaultPermission p) => p.HasFlagsOf d.store.defaultPermission
  | .store (.orgWideDefault x) => ∀ access,
    (d.store.defaultOf x.tenant x.collection).grants access = true → x.access.grants access = true
  | .store (.failProvider _) => False
  | .store (.restoreProvider _) => False
  | .managerScope scope => scope = .transitive
  | .maxGroupDepth depth => d.settings.maxGroupDepth ≤ depth

/-- Every change widens access where it is made. -/
def WidensAll (d : Deployment) : List Change → Prop
  | [] => True
  | c :: changes => d.Widens c ∧ (d.apply c).WidensAll changes

variable {d : Deployment}

/-- **A change that widens access extends the deployment.** -/
theorem extends_apply {c : Change} (hc : d.Widens c) : (d.apply c).Extends d := by
  have hsame := Extends.refl d
  -- a change may widen one thing, and leaves all others as they were
  cases c with
  | managerScope scope => exact { hsame with scope := fun _ => hc }
  | maxGroupDepth depth => exact { hsame with depth := hc }
  | store m =>
    cases m with
    | rule r => exact { hsame with rules := fun _ hr => List.mem_append_left _ hr }
    | recordShare share => exact { hsame with shares := fun _ hs => List.mem_append_left _ hs }
    | membership m =>
      refine { hsame with memberships := fun x hx => ?_ }
      simp only [apply, Store.apply]
      split
      · exact hx
      · exact List.mem_append_left _ hx
    | user u =>
      refine { hsame with users := fun x hx => ?_ }
      exact List.mem_cons_of_mem _ (List.mem_filter.2 ⟨hx, by simpa using hc x hx⟩)
    | permission user collection p =>
      refine { hsame with permission := fun user' collection' => ?_ }
      simp only [apply, Store.permissionOf_apply_permission]
      split
      · rename_i heq
        cases heq
        exact hc
      · exact .refl _
    | defaultPermission p =>
      refine { hsame with permission := fun user collection => ?_ }
      simp only [apply, Store.apply, Store.permissionOf]
      cases d.store.permissions.lookup (user, collection) with
      | none => exact hc
      | some p => exact .refl _
    | orgWideDefault x =>
      refine { hsame with orgWideDefault := fun tenant collection access hg => ?_ }
      simp only [apply, Store.defaultOf_apply_orgWideDefault]
      split
      · rename_i heq
        cases heq
        exact hc access hg
      · exact hg
    | failProvider => exact hc.elim
    | restoreProvider => exact hc.elim

/-- **So does any number of them.** -/
theorem extends_applyAll {changes : List Change} (hchanges : d.WidensAll changes) :
    (d.applyAll changes).Extends d := by
  induction changes generalizing d with
  | nil => exact .refl d
  | cons c changes ih => exact (ih hchanges.2).trans (extends_apply hchanges.1)

end Deployment

/-! ### Access that is never taken away -/

/-- A decision was made and grants the access. -/
def Run.IsGranted (r : Run Decision) : Prop :=
  ∃ decision, r.outcome = .ok decision ∧ decision.isGranted = true

theorem Run.isGranted_iff {r : Run Decision} :
    r.IsGranted ↔ r.outcome.toOption.any Decision.isGranted = true := by
  unfold IsGranted
  cases r.outcome <;> simp [Except.toOption]

instance (r : Run Decision) : Decidable r.IsGranted := decidable_of_iff' _ Run.isGranted_iff

/-- A filter was compiled and admits a record. -/
def Run.Admits (r : Run (Option SharingPredicate)) (record : RecordId) (owner : Option UserId) :
    Prop :=
  ∃ f, r.outcome = .ok f ∧ admits f record owner = true

namespace Store

variable {s : Store} {settings : EngineSettings} {record : Record} {access : AccessType}

theorem Consistent.isGranted_evaluateAs (hs : s.Consistent) (hp : s.failing = [])
    (subject : AccessSubject) :
    ((s.engine settings).evaluateFor (.subject subject) record access).IsGranted ↔
      (s.permissionOf subject.user record.collection).permits access = true ∧
        s.Grants settings.managerScope subject record access := by
  have hask : ∀ c : Query, c.provider ∉ s.failing := by simp [hp]
  have hpermission : ((s.engine settings).ask (.objectPermission subject.user
      record.collection)).outcome = .ok (s.permissionOf subject.user record.collection) :=
    engine_ask (hask _)
  obtain ⟨decision, hdecision, hiff⟩ := hs.exists_grants_decide
    (answeredFrom_engine settings fun c _ => hask c) hpermission id
  -- what is known of the bypass is a source as well
  rw [or_iff_right_of_imp .bypass] at hiff
  refine Iff.trans ?_ hiff
  rw [Run.IsGranted, Engine.outcome_evaluateFor, hdecision]
  simp

/-- A user is granted what the subject is granted that the user resolves to. -/
theorem exists_resolved (hp : s.failing = []) (settings : EngineSettings) (user : UserId) :
    ∃ subject, s.Resolves settings.maxGroupDepth user subject ∧ ∀ record access,
      ((s.engine settings).evaluateFor (.user user) record access).IsGranted ↔
        ((s.engine settings).evaluateFor (.subject subject) record access).IsGranted := by
  have hanswers : ∀ p : Provider, p ∉ s.failing := by simp [hp]
  obtain ⟨subject, -, hresolves⟩ :=
    exists_resolveSubject settings (hanswers .users) (hanswers .groups) user
  refine ⟨subject, hresolves, fun record access => ?_⟩
  rw [Run.IsGranted, (hresolves.standsFor.evaluateFor record access).outcome_eq (by simp [hp])]
  rfl

/-- Where a filter was compiled, it admits the records that the decision grants. -/
theorem Consistent.isGranted_iff_admits (hs : s.Consistent) {caller : Caller} {tenant : TenantId}
    {collection : CollectionId} {f : Option SharingPredicate}
    (hf : ((s.engine settings).filterFor caller tenant collection access).outcome = .ok f)
    (record : RecordId) (owner : Option UserId) :
    ((s.engine settings).evaluateFor caller ⟨tenant, collection, record, owner⟩
      access).IsGranted ↔ admits f record owner = true := by
  obtain ⟨decision, hdecision, hiff⟩ :=
    hs.filterFor_agree settings caller tenant collection access f hf record owner
  rw [Run.IsGranted, hdecision, admits_iff, ← hiff]
  simp

theorem Consistent.admits_filterFor (hs : s.Consistent) (hp : s.failing = []) (caller : Caller)
    {tenant : TenantId} {collection : CollectionId} {record : RecordId} {owner : Option UserId} :
    ((s.engine settings).filterFor caller tenant collection access).Admits record owner ↔
      ((s.engine settings).evaluateFor caller ⟨tenant, collection, record, owner⟩
        access).IsGranted := by
  have hfilter : ∃ f,
      ((s.engine settings).filterFor caller tenant collection access).outcome = .ok f := by
    cases caller with
    | user user => exact exists_ok_answer hp settings (.filter user tenant collection access)
    | subject s => exact exists_ok_answer hp settings (.filterAs s tenant collection access)
  obtain ⟨f, hf⟩ := hfilter
  rw [hs.isGranted_iff_admits hf, Run.Admits, hf]
  simp

end Store

namespace Deployment

variable {d d' : Deployment}

theorem Extends.isGranted_evaluateFor (h : d'.Extends d) (hd : d.store.Consistent)
    (hd' : d'.store.Consistent) (hp : d.store.failing = []) (caller : Caller) {record : Record}
    {access : AccessType} (hg : (d.engine.evaluateFor caller record access).IsGranted) :
    (d'.engine.evaluateFor caller record access).IsGranted := by
  have hp' : d'.store.failing = [] := h.failing.trans hp
  -- a user is taken as the subjects resolved before and after, of which the later extends the
  -- earlier
  have hsubject : ∀ {subject' subject : AccessSubject}, subject'.Extends subject →
      (d.engine.evaluateFor (.subject subject) record access).IsGranted →
        (d'.engine.evaluateFor (.subject subject') record access).IsGranted := by
    intro subject' subject hs hg
    obtain ⟨hpermits, hgrants⟩ := (hd.isGranted_evaluateAs hp subject).1 hg
    refine (hd'.isGranted_evaluateAs hp' subject').2 ⟨?_, h.grants hs hgrants⟩
    rw [hs.same_user]
    exact (h.permission _ _).permits hpermits
  cases caller with
  | subject s => exact hsubject (.refl s) hg
  | user user =>
    obtain ⟨subject, hresolves, hiff⟩ := Store.exists_resolved hp d.settings user
    obtain ⟨subject', hresolves', hiff'⟩ := Store.exists_resolved hp' d'.settings user
    exact (hiff' record access).2 (hsubject (h.resolves hd hd' hresolves hresolves')
      ((hiff record access).1 hg))

theorem Extends.admits_filterFor (h : d'.Extends d) (hd : d.store.Consistent)
    (hd' : d'.store.Consistent) (hp : d.store.failing = []) (caller : Caller) {tenant : TenantId}
    {collection : CollectionId} {access : AccessType} {record : RecordId} {owner : Option UserId}
    (hf : (d.engine.filterFor caller tenant collection access).Admits record owner) :
    (d'.engine.filterFor caller tenant collection access).Admits record owner :=
  (hd'.admits_filterFor (h.failing.trans hp) caller).2
    (h.isGranted_evaluateFor hd hd' hp caller ((hd.admits_filterFor hp caller).1 hf))

/-- **Access is never taken away by changes that widen it.**  While no provider fails, a user and a
subject are granted all that they were granted before, and their filters admit all records that they
admitted before. -/
theorem widening_keeps_access (history changes : List Change)
    (hp : (ofHistory history).store.failing = [])
    (hchanges : (ofHistory history).WidensAll changes) :
    let before := ofHistory history
    let later := before.applyAll changes
    ((∀ user record access, (before.engine.evaluate user record access).IsGranted →
        (later.engine.evaluate user record access).IsGranted) ∧
      ∀ subject record access, (before.engine.evaluateAs subject record access).IsGranted →
        (later.engine.evaluateAs subject record access).IsGranted) ∧
    (∀ user tenant collection access record owner,
        (before.engine.filter user tenant collection access).Admits record owner →
          (later.engine.filter user tenant collection access).Admits record owner) ∧
      ∀ subject tenant collection access record owner,
        (before.engine.filterAs subject tenant collection access).Admits record owner →
          (later.engine.filterAs subject tenant collection access).Admits record owner := by
  intro before later
  have h : later.Extends before := extends_applyAll hchanges
  have hd := consistent_ofHistory history
  have hd' := consistent_applyAll hd changes
  refine ⟨⟨?_, ?_⟩, ?_, ?_⟩
  · exact fun user record access => h.isGranted_evaluateFor hd hd' hp (.user user)
  · exact fun subject record access => h.isGranted_evaluateFor hd hd' hp (.subject subject)
  · exact fun user tenant collection access record owner =>
      h.admits_filterFor hd hd' hp (.user user)
  · exact fun subject tenant collection access record owner =>
      h.admits_filterFor hd hd' hp (.subject subject)

/-- A record is shared with a group around the group of a user, and nesting may go no deeper. -/
def nestedDesk : List Change :=
  [.store (.orgWideDefault ⟨⟨"t"⟩, ⟨"c"⟩, .privateAccess⟩), .maxGroupDepth 1,
    .store (.membership (.ofUser ⟨"team"⟩ ⟨"ann"⟩)),
    .store (.membership (.nested ⟨"desk"⟩ ⟨"team"⟩)),
    .store (.recordShare (.make ⟨"share", default⟩ ⟨"t"⟩ ⟨"c"⟩ ⟨"r"⟩ (.group ⟨"desk"⟩) .read))]

/-- A cycle of groups, a new manager, a rule and deeper nesting. -/
def growth : List Change :=
  [.store (.membership (.nested ⟨"team"⟩ ⟨"desk"⟩)),
    .store (.user ⟨⟨"bob"⟩, none, some ⟨"ann"⟩, none⟩), .managerScope .transitive,
    .maxGroupDepth 5,
    .store (.rule (.make ⟨"all", default⟩ ⟨"t"⟩ ⟨"c"⟩ (.ownerBased (.group ⟨"team"⟩))
      (.user ⟨"ann"⟩) .readWrite))]

/-- What a group member reads through a share stays readable and stays in the filter. -/
theorem shared_record_stays :
    let later := (ofHistory nestedDesk).applyAll growth
    (ofHistory nestedDesk).store.failing = [] ∧ (ofHistory nestedDesk).WidensAll growth ∧
      (later.engine.evaluate ⟨"ann"⟩ ⟨⟨"t"⟩, ⟨"c"⟩, ⟨"r"⟩, none⟩ .read).IsGranted ∧
      (later.engine.filter ⟨"ann"⟩ ⟨"t"⟩ ⟨"c"⟩ .read).Admits ⟨"r"⟩ none := by
  have hwidens : (ofHistory nestedDesk).WidensAll growth := by
    refine ⟨trivial, fun x hx => ?_, rfl, (by decide : 1 ≤ 5), trivial, trivial⟩
    cases hx
  obtain ⟨⟨hevaluate, -⟩, hfilter, -⟩ := widening_keeps_access nestedDesk growth rfl hwidens
  refine ⟨rfl, hwidens, hevaluate _ _ _ ⟨.granted (.groupShare "share"), rfl, rfl⟩,
    hfilter _ _ _ _ _ _ ?_⟩
  exact ⟨some ⟨[.ownerEq ⟨"ann"⟩, .idIn [⟨"r"⟩]]⟩, rfl, by decide⟩

end Deployment

end RecordAccess
