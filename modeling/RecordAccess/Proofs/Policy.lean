import RecordAccess.Proofs.Closures
import RecordAccess.Proofs.Decisions
import RecordAccess.Proofs.Managers

/-!
# The sharing policy

`Store.policy` says which decision the contents of a store call for, without saying how to find it:
managers and group members are given by reachability, rules and shares by the first one in the order
of insertion that grants.  Over a store whose providers answer, the engine decides a resolved
subject by that policy (`Store.Consistent.outcome_decide`).
-/

namespace RecordAccess

/-- The questions that a decision asks, but for that about the object permission. -/
def Query.IsDecisive : Query → Prop
  | .objectPermission .. | .collectionShares .. | .subordinates _ | .roleHolders .. => False
  | _ => True

theorem Query.IsDecisive.provider_ne {c : Query} (hc : c.IsDecisive) :
    c.provider ≠ .objectPermissions := by
  cases c with
  | objectPermission => exact hc.elim
  | _ => exact Provider.noConfusion

/-! ### What grants -/

/-- Whether a subject is among the recipients that a principal stands for inside a tenant. -/
def AccessSubject.BelongsTo (subject : AccessSubject) (tenant : TenantId) : Principal → Prop
  | .user id => id = subject.user
  | .group g => g ∈ subject.groups
  | .queue g => g ∈ subject.groups
  | .role r => subject.role = some r ∧ (subject.tenant = none ∨ subject.tenant = some tenant)

namespace Store

variable (s : Store)

/-- Whether a user is among the owners that a principal stands for inside a tenant. -/
def Contains (tenant : TenantId) : Principal → UserId → Prop
  | .user id, u => id = u
  | .group g, u => s.HasMember g u
  | .queue g, u => s.HasMember g u
  | .role r, u =>
    ∃ x ∈ s.users, x.id = u ∧ x.role = some r ∧ (x.tenant = none ∨ x.tenant = some tenant)

/-- Whether a rule of a kind opens a record: by criteria, or because its owner is shared from. -/
def Opens (record : Record) : RuleKind → Prop
  | .criteriaBased _ => True
  | .ownerBased sharedFrom =>
    ∃ owner, record.owner = some owner ∧ s.Contains record.tenant sharedFrom owner

/-- A rule gives a subject an access to a record. -/
structure RuleGrants (subject : AccessSubject) (record : Record) (access : AccessType)
    (r : SharingRule) : Prop where
  tenant : r.tenant = record.tenant
  collection : r.collection = record.collection
  active : r.active = true
  level : r.level.satisfies access = true
  recipient : subject.BelongsTo record.tenant r.sharedTo
  opens : s.Opens record r.kind

/-- A share with one of some recipients gives an access to a record. -/
structure ShareGrants (recipients : ShareSubject → Prop) (record : Record) (access : AccessType)
    (share : RecordShare) : Prop where
  tenant : share.tenant = record.tenant
  collection : share.collection = record.collection
  record : share.record = record.id
  level : share.level.satisfies access = true
  recipient : recipients share.sharedWith

/-! ### The policy -/

/-- The permission of a user on a collection: their own, or the one of everybody else. -/
def permissionOf (user : UserId) (collection : CollectionId) : ObjectPermission :=
  (s.permissions.lookup (user, collection)).getD s.defaultPermission

/-- The default of a collection; one that is not recorded is open to everyone. -/
def defaultOf (tenant : TenantId) (collection : CollectionId) : DefaultAccess :=
  match s.orgWideDefaults.find? fun d => d.tenant = tenant && d.collection = collection with
  | some d => d.access
  | none => .publicReadWrite

open Classical in
/-- The decision that the contents of a store call for. -/
noncomputable def policy (scope : ManagerScope) (subject : AccessSubject) (record : Record)
    (access : AccessType) : Decision :=
  if ¬ (s.permissionOf subject.user record.collection).permits access then
    .denied .missingObjectPermission
  else if access = .read ∧ (s.permissionOf subject.user record.collection).canViewAll then
    .granted .viewAll
  else if access ≠ .read ∧ (s.permissionOf subject.user record.collection).canModifyAll then
    .granted .modifyAll
  else if (s.defaultOf record.tenant record.collection).grants access then
    .granted (.orgWideDefault (s.defaultOf record.tenant record.collection))
  else if record.owner = some subject.user then
    .granted .ownership
  else if ∃ owner, record.owner = some owner ∧ scope.Reaches s.ManagedBy owner subject.user then
    .granted .managerChain
  else match s.rules.find? fun r => s.RuleGrants subject record access r with
    | some rule => .granted (.sharingRule rule.id)
    | none =>
      match s.shares.find? fun share =>
          ShareGrants (fun w => w = .user subject.user) record access share with
      | some share => .granted (.recordShare share.id)
      | none =>
        match s.shares.find? fun share =>
            ShareGrants (fun w => ∃ g ∈ subject.groups, w = .group g) record access share with
        | some share => .granted (.groupShare share.id)
        | none => .denied .noGrant

/-! ### Sources of an engine -/

variable {s} {e : Engine} {settings : EngineSettings} {subject : AccessSubject} {record : Record}
  {access : AccessType}

theorem belongsTo_iff {tenant : TenantId} {p : Principal} :
    p.includes subject tenant = true ↔ subject.BelongsTo tenant p := by
  cases p with
  | user id => simp [Principal.includes, AccessSubject.BelongsTo]
  | group g => simp [Principal.includes, AccessSubject.BelongsTo, AccessSubject.isInGroup]
  | queue g => simp [Principal.includes, AccessSubject.BelongsTo, AccessSubject.isInGroup]
  | role r =>
    obtain ⟨user, role, home, groups⟩ := subject
    cases home <;> simp [Principal.includes, AccessSubject.BelongsTo, AccessSubject.hasRoleIn]

theorem hasRoleIn_iff {u : User} {role : RoleId} {tenant : TenantId} :
    u.hasRoleIn role tenant = true ↔
      u.role = some role ∧ (u.tenant = none ∨ u.tenant = some tenant) := by
  obtain ⟨id, home, manager, own⟩ := u
  cases home <;> simp [User.hasRoleIn, User.belongsTo]

theorem groups_of_decisive (he : e.AnsweredFrom s Query.IsDecisive) :
    e.AnsweredFrom s fun c => c.provider = .groups :=
  he.mono fun c _ => by cases c <;> trivial

theorem Consistent.exists_ownerIn_contains (hs : s.Consistent)
    (he : e.AnsweredFrom s Query.IsDecisive) (owner : UserId) (tenant : TenantId) (p : Principal) :
    ∃ b, (e.ownerIn owner tenant p).outcome = .ok b ∧ (b = true ↔ s.Contains tenant p owner) := by
  cases p with
  | user id => exact ⟨decide (id = owner), rfl, by simp [Contains]⟩
  | group g =>
    obtain ⟨us, hus, hmem⟩ := exists_effectiveUsers (groups_of_decisive he) g
    exact ⟨us.contains owner, Run.outcome_bind_of_ok hus _, by simp [Contains, hmem]⟩
  | queue g =>
    obtain ⟨us, hus, hmem⟩ := exists_effectiveUsers (groups_of_decisive he) g
    exact ⟨us.contains owner, Run.outcome_bind_of_ok hus _, by simp [Contains, hmem]⟩
  | role r =>
    refine ⟨_, Run.outcome_bind_of_ok (he (.user owner) trivial) _, hs.any_user.trans ?_⟩
    simp only [hasRoleIn_iff, Contains]

theorem Consistent.exists_covers (hs : s.Consistent) (he : e.AnsweredFrom s Query.IsDecisive)
    (record : Record) (r : SharingRule) :
    ∃ b, (e.covers record r.scope).outcome = .ok b ∧ (b = true ↔ s.Opens record r.kind) := by
  unfold SharingRule.scope
  cases r.kind with
  | criteriaBased criteria => exact ⟨true, rfl, by simp [Opens]⟩
  | ownerBased sharedFrom =>
    cases ho : record.owner with
    | none => exact ⟨false, by simp [Engine.covers, ho], by simp [Opens, ho]⟩
    | some owner =>
      obtain ⟨b, hb, hiff⟩ := hs.exists_ownerIn_contains he owner record.tenant sharedFrom
      exact ⟨b, by simp [Engine.covers, ho, hb], by simp [Opens, ho, hiff]⟩

theorem ruleGrants_iff {r : SharingRule} (ht : r.tenant = record.tenant)
    (hc : r.collection = record.collection) :
    s.RuleGrants subject record access r ↔
      r.appliesTo subject access = true ∧ s.Opens record r.kind := by
  simp only [SharingRule.appliesTo, Bool.and_eq_true, belongsTo_iff, ht]
  constructor
  · exact fun h => ⟨⟨⟨h.active, h.level⟩, h.recipient⟩, h.opens⟩
  · rintro ⟨⟨⟨ha, hl⟩, hr⟩, ho⟩
    exact ⟨ht, hc, ha, hl, hr, ho⟩

/-- Going through the rules that apply finds the first of all rules that applies and opens the
record. -/
theorem Consistent.outcome_firstCovering (hs : s.Consistent)
    (he : e.AnsweredFrom s Query.IsDecisive) {q : SharingRule → Bool} {rules : List SharingRule}
    (hq : ∀ r ∈ rules, q r = true ↔ r.appliesTo subject access = true ∧ s.Opens record r.kind) :
    (e.firstCovering record (applicable rules subject access)).outcome = .ok (rules.find? q) := by
  induction rules with
  | nil => rfl
  | cons r rules ih =>
    have ih := ih fun r' hr' => hq r' (List.mem_cons_of_mem r hr')
    have hqr := hq r List.mem_cons_self
    -- the engine leaves out what does not apply before it looks, the policy while it looks
    by_cases happlies : r.appliesTo subject access = true
    · have happ : applicable (r :: rules) subject access =
          (r, r.scope) :: applicable rules subject access := by
        simp [applicable, happlies]
      obtain ⟨b, hb, hiff⟩ := hs.exists_covers he record r
      rw [happ, Engine.firstCovering, Run.outcome_bind_of_ok hb, List.find?_cons]
      cases b with
      | true =>
        rw [hqr.2 ⟨happlies, hiff.1 rfl⟩]
        rfl
      | false =>
        have hno : q r = false := by
          rw [Bool.eq_false_iff]
          exact fun h => Bool.false_ne_true (hiff.2 (hqr.1 h).2)
        rw [hno]
        exact ih
    · have happ : applicable (r :: rules) subject access = applicable rules subject access := by
        simp [applicable, happlies]
      have hno : q r = false := by
        rw [Bool.eq_false_iff]
        exact fun h => happlies (hqr.1 h).1
      rw [happ, List.find?_cons, hno]
      exact ih

/-- The engine finds the first rule that grants. -/
theorem Consistent.outcome_grantingRule (hs : s.Consistent)
    (he : e.AnsweredFrom s Query.IsDecisive) {q : SharingRule → Bool}
    (hq : ∀ r, q r = true ↔ s.RuleGrants subject record access r) :
    (e.grantingRule (.subject subject) record access).outcome =
      .ok (.subject subject, s.rules.find? q) := by
  have hrules := he (.activeRules record.tenant record.collection) trivial
  have hmem : ∀ r, r ∈ s.answer (.activeRules record.tenant record.collection) ↔
      r ∈ s.rules ∧ r.tenant = record.tenant ∧ r.collection = record.collection ∧
        r.active = true := by
    intro r
    simp only [answer, List.mem_filter, Bool.and_eq_true, decide_eq_true_eq, and_assoc]
  have hfind : (s.answer (.activeRules record.tenant record.collection)).find? q =
      s.rules.find? q := by
    -- a rule that the provider leaves out does not grant
    refine find?_filter_eq (fun r => ?_) s.rules
    simp only [Bool.and_eq_true, decide_eq_true_eq, hq]
    exact ⟨fun h => ⟨⟨⟨h.tenant, h.collection⟩, h.active⟩, h⟩, fun h => h.2⟩
  have hcovering : (e.firstCovering record (applicable
      (s.answer (.activeRules record.tenant record.collection)) subject access)).outcome =
      .ok ((s.answer (.activeRules record.tenant record.collection)).find? q) := by
    refine hs.outcome_firstCovering he fun r hr => ?_
    obtain ⟨-, ht, hc, -⟩ := (hmem r).1 hr
    rw [hq, ruleGrants_iff ht hc]
  rw [← hfind]
  by_cases hempty : (s.answer (.activeRules record.tenant record.collection)).isEmpty = true
  · rw [Engine.grantingRule, Run.outcome_bind_of_ok hrules, if_pos hempty,
      List.isEmpty_iff.1 hempty]
    rfl
  · exact Engine.outcome_grantingRule hrules hempty rfl hcovering

/-! ### Shares -/

theorem find_shares {recipients : ShareSubject → Prop} {p q : RecordShare → Bool}
    (hp : ∀ share, p share = true ↔ share.collection = record.collection ∧
      share.record = record.id ∧ recipients share.sharedWith)
    (hq : ∀ share, q share = true ↔ ShareGrants recipients record access share) :
    (s.shares.filter p).find? (fun share => share.gives record.tenant access) =
      s.shares.find? q := by
  refine find?_filter_eq (fun share => ?_) s.shares
  simp only [hq, hp, RecordShare.gives, Bool.and_eq_true, decide_eq_true_eq]
  constructor
  · exact fun h => ⟨⟨h.collection, h.record, h.recipient⟩, h.tenant, h.level⟩
  · rintro ⟨⟨hc, hr, hw⟩, ht, hl⟩
    exact ⟨ht, hc, hr, hl, hw⟩

/-- The engine finds the first share with the user that grants, or else the first with a group. -/
theorem outcome_grantingShare (he : e.AnsweredFrom s Query.IsDecisive)
    {direct group : RecordShare → Bool}
    (hdirect : ∀ share, direct share = true ↔
      ShareGrants (fun w => w = .user subject.user) record access share)
    (hgroup : ∀ share, group share = true ↔
      ShareGrants (fun w => ∃ g ∈ subject.groups, w = .group g) record access share) :
    (e.grantingShare (.subject subject) record access).outcome =
      .ok (((s.shares.find? direct).map fun share => .recordShare share.id).or
        ((s.shares.find? group).map fun share => .groupShare share.id)) := by
  -- each question selects by record and recipient, and the engine by tenant and level
  have hd : (s.answer (.directShares record.collection record.id subject.user)).find?
      (fun share => share.gives record.tenant access) = s.shares.find? direct :=
    find_shares (fun share => by simp [and_assoc]) hdirect
  have hg : (s.answer (.groupShares record.collection record.id
      (sortedGroups subject.groups))).find? (fun share => share.gives record.tenant access) =
      s.shares.find? group := by
    refine find_shares (fun share => ?_) hgroup
    cases share.sharedWith <;> simp [and_assoc]
  rw [← hd, ← hg]
  exact Engine.outcome_grantingShare rfl
    (he (.directShares record.collection record.id subject.user) trivial)
    (he (.groupShares record.collection record.id (sortedGroups subject.groups)) trivial)
    groupShares_eq_nil

/-! ### The engine follows the policy -/

theorem outcome_defaultAccess {tenant : TenantId} {collection : CollectionId}
    (he : (e.ask (.orgWideDefault tenant collection)).outcome =
      .ok (s.answer (.orgWideDefault tenant collection))) :
    (e.defaultAccess tenant collection).outcome = .ok (s.defaultOf tenant collection) := by
  rw [Engine.defaultAccess, Run.outcome_bind_of_ok he]
  simp only [answer, defaultOf]
  cases s.orgWideDefaults.find? _ <;> rfl

theorem ite_bypass (permission : ObjectPermission) (access : AccessType) (d : Decision) :
    (if access = .read ∧ permission.canViewAll then .granted .viewAll
      else if access ≠ .read ∧ permission.canModifyAll then .granted .modifyAll else d) =
      if permission.bypasses access then .granted (.bypass access) else d := by
  by_cases h : permission.bypasses access = true <;> cases access <;>
    simp_all [ObjectPermission.bypasses, GrantSource.bypass]

theorem Consistent.exists_decideRecord (hs : s.Consistent)
    (he : e.AnsweredFrom s Query.IsDecisive) {rule : SharingRule → Bool}
    {direct group : RecordShare → Bool}
    (hrule : ∀ r, rule r = true ↔ s.RuleGrants subject record access r)
    (hdirect : ∀ share, direct share = true ↔
      ShareGrants (fun w => w = .user subject.user) record access share)
    (hgroup : ∀ share, group share = true ↔
      ShareGrants (fun w => ∃ g ∈ subject.groups, w = .group g) record access share) :
    ∃ manages : Bool,
      (manages = true ↔ ∃ owner, record.owner = some owner ∧
        e.settings.managerScope.Reaches s.ManagedBy owner subject.user) ∧
      (e.decideRecord (.subject subject) record access).outcome =
        .ok (.first (record.owner = some subject.user) manages (s.rules.find? rule)
          (((s.shares.find? direct).map fun share => .recordShare share.id).or
            ((s.shares.find? group).map fun share => .groupShare share.id))) := by
  obtain ⟨manages, hmanages, hiff⟩ :=
    hs.exists_managesOwner (fun u => he (.user u) trivial) (.subject subject) record
  exact ⟨manages, hiff, Engine.outcome_decideRecord hmanages (hs.outcome_grantingRule he hrule)
    fun _ => outcome_grantingShare he hdirect hgroup⟩

theorem Consistent.outcome_decide (hs : s.Consistent) (hp : s.failing = []) :
    ((s.engine settings).decide (.subject subject) record access).outcome =
      .ok (s.policy settings.managerScope subject record access) := by
  classical
  have hask : ∀ c : Query, c.provider ∉ s.failing := by simp [hp]
  have hpermission : s.answer (.objectPermission subject.user record.collection) =
      s.permissionOf subject.user record.collection := rfl
  rw [Engine.decide, Run.outcome_bind_of_ok (engine_ask (hask _)), Caller.userId, hpermission,
    policy, ite_bypass]
  -- the engine takes the branches of the policy one by one
  by_cases hpermits : (s.permissionOf subject.user record.collection).permits access = true
  · rw [if_neg (by simp [hpermits]), if_neg (not_not_intro hpermits)]
    by_cases hbypass : (s.permissionOf subject.user record.collection).bypasses access = true
    · rw [if_pos hbypass, if_pos hbypass]
      rfl
    · rw [if_neg hbypass, if_neg hbypass, Run.outcome_bind_of_ok
        (outcome_defaultAccess (engine_ask (hask (.orgWideDefault _ _))))]
      by_cases hdefault : (s.defaultOf record.tenant record.collection).grants access = true
      · rw [if_pos hdefault, if_pos hdefault]
        rfl
      · obtain ⟨manages, hmanages, hrecord⟩ := hs.exists_decideRecord
          (answeredFrom_engine settings fun c _ => hask c)
          (fun r => decide_eq_true_iff) (fun share => decide_eq_true_iff)
          (fun share => decide_eq_true_iff (p := ShareGrants _ record access share))
        rw [if_neg hdefault, if_neg hdefault, hrecord]
        unfold Decision.first
        simp only [decide_eq_true_eq, hmanages]
        congr 3
        cases s.rules.find? _ with
        | some rule => rfl
        | none =>
          cases s.shares.find? fun share =>
              ShareGrants (fun w => w = .user subject.user) record access share with
          | some share => rfl
          | none => cases s.shares.find? _ <;> rfl
  · rw [if_pos (by simp [hpermits]), if_pos hpermits]
    rfl

/-- **The engine follows the policy.**  Over a store whose providers answer, a resolved subject is
decided for the first source of the policy that grants, with that source as the reason. -/
theorem evaluateAs_eq_policy (history : List Mutation) (settings : EngineSettings)
    (hp : (ofHistory history).failing = []) (subject : AccessSubject) (record : Record)
    (access : AccessType) :
    (((ofHistory history).engine settings).evaluateAs subject record access).outcome =
      .ok ((ofHistory history).policy settings.managerScope subject record access) :=
  Engine.outcome_evaluateFor.trans ((consistent_ofHistory history).outcome_decide hp)

/-- A private collection where two groups are nested in each other, and the members of either share
what they own with a queue. -/
def nestedHistory : List Mutation :=
  [.orgWideDefault ⟨⟨"t"⟩, ⟨"c"⟩, .privateAccess⟩, .membership (.nested ⟨"g"⟩ ⟨"h"⟩),
    .membership (.nested ⟨"h"⟩ ⟨"g"⟩), .membership (.ofUser ⟨"h"⟩ ⟨"rep"⟩),
    .rule ((SharingRule.make ⟨"off", default⟩ ⟨"t"⟩ ⟨"c"⟩ (.criteriaBased .null) (.queue ⟨"q"⟩)
      .readWrite).inactive),
    .rule (.make ⟨"on", default⟩ ⟨"t"⟩ ⟨"c"⟩ (.ownerBased (.group ⟨"g"⟩)) (.queue ⟨"q"⟩)
      .readWrite)]

/-- The policy skips the rule that is switched off. -/
theorem rep_shares_with_queue :
    (ofHistory nestedHistory).failing = [] ∧
      (ofHistory nestedHistory).policy .transitive ⟨⟨"ann"⟩, none, none, [⟨"q"⟩]⟩
        ⟨⟨"t"⟩, ⟨"c"⟩, ⟨"r"⟩, some ⟨"rep"⟩⟩ .edit = .granted (.sharingRule "on") := by
  have hp : (ofHistory nestedHistory).failing = [] := rfl
  have hdecision : (((ofHistory nestedHistory).engine ⟨0, .transitive⟩).evaluateAs
      ⟨⟨"ann"⟩, none, none, [⟨"q"⟩]⟩ ⟨⟨"t"⟩, ⟨"c"⟩, ⟨"r"⟩, some ⟨"rep"⟩⟩ .edit).outcome =
      .ok (.granted (.sharingRule "on")) := by
    rfl
  have hpolicy := evaluateAs_eq_policy nestedHistory ⟨0, .transitive⟩ hp
    ⟨⟨"ann"⟩, none, none, [⟨"q"⟩]⟩ ⟨⟨"t"⟩, ⟨"c"⟩, ⟨"r"⟩, some ⟨"rep"⟩⟩ .edit
  exact ⟨hp, Except.ok.inj (hpolicy.symm.trans hdecision)⟩

end Store

end RecordAccess
