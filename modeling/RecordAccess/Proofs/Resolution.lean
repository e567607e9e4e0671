import RecordAccess.Proofs.Answers
import RecordAccess.Proofs.Deployments

/-!
# Resolved subjects

Resolving a user over a store gives one subject, whatever is asked for it (`Store.Resolves`).  A
request that comes from the user resolves the user when it needs to, and otherwise does what it does
for the subject: it gives the same, unless a provider that resolving needs is at fault
(`Engine.StandsFor`).

A subject may therefore be resolved long before it is used.  It stays interchangeable with its user
through all changes but those of memberships, of the user's own entry and of the depth of nesting
(`Deployment.subject_stays_interchangeable`).
-/

namespace RecordAccess

/-! ### What resolving gives -/

namespace Store

/-- A subject is what a store has to say of a user, with groups nested up to a depth. -/
structure Resolves (s : Store) (depth : ℕ) (user : UserId) (subject : AccessSubject) : Prop where
  same_user : subject.user = user
  role : subject.role = (s.answer (.user user)).bind (·.role)
  tenant : subject.tenant = (s.answer (.user user)).bind (·.tenant)
  groups : ∃ gs, subject.groups = sortedGroups gs ∧ ∀ g,
    g ∈ gs ↔ ∃ n ≤ depth, s.graph.Above user n g

variable {s : Store} {settings : EngineSettings} {depth : ℕ} {user : UserId}
  {subject subject' : AccessSubject}

theorem Resolves.unique (h' : s.Resolves depth user subject') (h : s.Resolves depth user subject) :
    subject' = subject := by
  obtain ⟨gs', hgs', hmem'⟩ := h'.groups
  obtain ⟨gs, hgs, hmem⟩ := h.groups
  have hgroups : sortedGroups gs' = sortedGroups gs :=
    sortedGroups_congr fun g => (hmem' g).trans (hmem g).symm
  obtain ⟨user', role', tenant', groups'⟩ := subject'
  obtain ⟨user, role, tenant, groups⟩ := subject
  rw [AccessSubject.mk.injEq]
  exact ⟨h'.same_user.trans h.same_user.symm, h'.role.trans h.role.symm,
    h'.tenant.trans h.tenant.symm, hgs'.trans (hgroups.trans hgs.symm)⟩

theorem Resolves.mem_groups (h : s.Resolves depth user subject) {g : GroupId} :
    g ∈ subject.groups ↔ ∃ n ≤ depth, s.graph.Above user n g := by
  obtain ⟨gs, hgs, hmem⟩ := h.groups
  rw [hgs, mem_sortedGroups, hmem]

theorem exists_ok_resolveSubject {e : Engine}
    (huser : (e.ask (.user user)).outcome = .ok (s.answer (.user user)))
    (hgroups : e.AnsweredFrom s fun c => c.provider = .groups) :
    ∃ subject, (e.resolveSubject user).outcome = .ok subject ∧
      s.Resolves e.settings.maxGroupDepth user subject := by
  obtain ⟨gs, hgs, hmem⟩ := (listsParents hgroups).exists_effectiveGroups user
  refine ⟨⟨user, _, _, sortedGroups gs⟩, ?_, rfl, rfl, rfl, gs, rfl, hmem⟩
  rw [Engine.resolveSubject, Run.outcome_bind_of_ok huser, Run.outcome_bind_of_ok hgs]
  rfl

theorem exists_resolveSubject (settings : EngineSettings) (husers : Provider.users ∉ s.failing)
    (hgroups : Provider.groups ∉ s.failing) (user : UserId) :
    ∃ subject, ((s.engine settings).resolveSubject user).outcome = .ok subject ∧
      s.Resolves settings.maxGroupDepth user subject :=
  exists_ok_resolveSubject (engine_ask (c := .user user) husers)
    (answeredFrom_engine settings fun _ hc => hc ▸ hgroups)

theorem answering_of_resolveSubject
    (h : ((s.engine settings).resolveSubject user).outcome = .ok subject) :
    Provider.users ∉ s.failing ∧ Provider.groups ∉ s.failing := by
  obtain ⟨found, hfound, hrest⟩ := Run.outcome_bind_eq_ok.1 h
  obtain ⟨groups, hgroups, -⟩ := Run.outcome_bind_eq_ok.1 hrest
  obtain ⟨-, -, hgroups⟩ := Run.outcome_bind_eq_ok.1 hgroups
  obtain ⟨direct, hdirect, -⟩ := Run.outcome_bind_eq_ok.1 hgroups
  exact ⟨(engine_ask_eq_ok.1 hfound).1, (engine_ask_eq_ok.1 hdirect).1⟩

/-- **Resolving gives what the store has to say**, exactly where users and groups answer. -/
theorem resolveSubject_eq_ok_iff :
    ((s.engine settings).resolveSubject user).outcome = .ok subject ↔
      (Provider.users ∉ s.failing ∧ Provider.groups ∉ s.failing) ∧
        s.Resolves settings.maxGroupDepth user subject := by
  constructor
  · intro h
    obtain ⟨husers, hgroups⟩ := answering_of_resolveSubject h
    obtain ⟨subject', h', hresolves⟩ := exists_resolveSubject settings husers hgroups user
    rw [h] at h'
    cases h'
    exact ⟨⟨husers, hgroups⟩, hresolves⟩
  · rintro ⟨⟨husers, hgroups⟩, h⟩
    obtain ⟨subject', h', hresolves⟩ := exists_resolveSubject settings husers hgroups user
    rw [h', hresolves.unique h]

theorem Resolves.of_eq {s' : Store} (h : s.Resolves depth user subject)
    (huser : s'.answer (.user user) = s.answer (.user user))
    (hmemberships : SameMembers s'.memberships s.memberships) :
    s'.Resolves depth user subject := by
  obtain ⟨gs, hgs, hmem⟩ := h.groups
  refine ⟨h.same_user, ?_, ?_, gs, hgs, fun g => (hmem g).trans ⟨fun hg => ?_, fun hg => ?_⟩⟩
  · rw [huser, h.role]
  · rw [huser, h.tenant]
  · exact hg.imp fun _ hn => ⟨hn.1, hn.2.mono fun m => (hmemberships m).2⟩
  · exact hg.imp fun _ hn => ⟨hn.1, hn.2.mono fun m => (hmemberships m).1⟩

end Store

/-! ### Runs that fail more often -/

/-- A run is like another, or fails by a fault. -/
inductive Run.Lags {α : Type} (fault : Prop) (R : α → α → Prop) (r' r : Run α) : Prop
  | alike (h : Run.Alike R r' r)
  | failed (hfault : fault) (error : AccessError) (outcome' : r'.outcome = .error error)

namespace Run.Lags

variable {α β : Type} {fault : Prop} {R : α → α → Prop} {S : β → β → Prop} {r' r : Run α}

theorem pure {a' a : α} (h : R a' a) : Lags fault R (Pure.pure a') (Pure.pure a) :=
  .alike (.pure h)

theorem refl (r : Run α) : Lags fault Eq r r := .alike (.of_outcome_eq rfl)

/-- **Composed runs lag behind** when their parts do. -/
theorem bind {f' f : α → Run β} (h : Lags fault R r' r)
    (hf : ∀ a' a, R a' a → Lags fault S (f' a') (f a)) : Lags fault S (r' >>= f') (r >>= f) := by
  cases h with
  | failed hfault error hr' => exact .failed hfault error (outcome_bind_of_error hr' f')
  | alike h =>
    cases h with
    | failed error hr' hr =>
      exact .alike (.failed error (outcome_bind_of_error hr' f') (outcome_bind_of_error hr f))
    | given a' a hr' hr hR =>
      cases hf a' a hR with
      | alike h =>
        exact .alike (h.congr (outcome_bind_of_ok hr' f') (outcome_bind_of_ok hr f))
      | failed hfault error hb' =>
        exact .failed hfault error ((outcome_bind_of_ok hr' f').trans hb')

theorem bind_same {f' f : α → Run β} (h : Lags fault Eq r' r)
    (hf : ∀ a, Lags fault S (f' a) (f a)) : Lags fault S (r' >>= f') (r >>= f) :=
  h.bind fun a' a heq => by subst heq; exact hf a'

theorem outcome_of_ok (h : Lags fault Eq r' r) {a : α} (ha : r'.outcome = .ok a) :
    r.outcome = .ok a := by
  cases h with
  | alike h => exact h.outcome_eq ▸ ha
  | failed _ error hr' =>
    rw [hr'] at ha
    cases ha

theorem outcome_eq (h : Lags fault Eq r' r) (hfault : ¬ fault) : r'.outcome = r.outcome := by
  cases h with
  | alike h => exact h.outcome_eq
  | failed h => exact absurd h hfault

end Run.Lags

/-! ### Callers that stand for each other -/

namespace Engine

/-- A caller is the same user as another, and is resolved to the same subject or fails by a
fault. -/
structure StandsFor (e : Engine) (fault : Prop) (caller' caller : Caller) : Prop where
  userId : caller'.userId = caller.userId
  subject : Run.Lags fault Eq (e.subjectOf caller') (e.subjectOf caller)

namespace StandsFor

open Run

variable {e : Engine} {fault : Prop} {caller' caller : Caller} {record : Record}
  {tenant : TenantId} {collection : CollectionId} {access : AccessType}

theorem refl (caller : Caller) : e.StandsFor fault caller caller := ⟨rfl, .refl _⟩

variable (h : e.StandsFor fault caller' caller)

include h

theorem grantingRule :
    Run.Lags fault (fun x' x => e.StandsFor fault x'.1 x.1 ∧ x'.2 = x.2)
      (e.grantingRule caller' record access) (e.grantingRule caller record access) := by
  refine (Run.Lags.refl _).bind_same fun rules => ?_
  split
  · exact .pure ⟨h, rfl⟩
  · refine h.subject.bind_same fun s => (Run.Lags.refl _).bind_same fun rule => ?_
    exact .pure ⟨.refl _, rfl⟩

theorem grantingShare :
    Run.Lags fault Eq (e.grantingShare caller' record access)
      (e.grantingShare caller record access) := by
  unfold Engine.grantingShare
  rw [h.userId]
  refine (Run.Lags.refl _).bind_same fun direct => ?_
  split
  · exact .refl _
  · exact h.subject.bind_same fun s => .refl _

theorem decideRecord :
    Run.Lags fault Eq (e.decideRecord caller' record access)
      (e.decideRecord caller record access) := by
  have hmanages : e.managesOwner caller' record = e.managesOwner caller record := by
    unfold managesOwner
    rw [h.userId]
  unfold Engine.decideRecord
  rw [h.userId, hmanages]
  split
  · exact .refl _
  · refine (Run.Lags.refl _).bind_same fun manages => ?_
    split
    · exact .refl _
    · refine h.grantingRule.bind fun found' found hfound => ?_
      obtain ⟨next', rule'⟩ := found'
      obtain ⟨next, rule⟩ := found
      -- where there were rules, both go on as the subject
      obtain ⟨hnext, rfl⟩ := hfound
      cases rule' with
      | some rule => exact .refl _
      | none => exact hnext.grantingShare.bind_same fun share => .refl _

/-- **A caller is decided as one they stand for**, or fails by the fault. -/
theorem evaluateFor (record : Record) (access : AccessType) :
    Run.Lags fault Eq (e.evaluateFor caller' record access)
      (e.evaluateFor caller record access) := by
  refine Run.Lags.bind_same ?_ fun decision => .refl _
  unfold Engine.decide
  rw [h.userId]
  refine (Run.Lags.refl _).bind_same fun permission => ?_
  split
  · exact .refl _
  · split
    · exact .refl _
    · refine (Run.Lags.refl _).bind_same fun baseline => ?_
      split
      · exact .refl _
      · exact h.decideRecord

theorem sharedOwners :
    Run.Lags fault (fun x' x => e.StandsFor fault x'.1 x.1 ∧ x'.2 = x.2)
      (e.sharedOwners caller' tenant collection access)
      (e.sharedOwners caller tenant collection access) := by
  refine (Run.Lags.refl _).bind_same fun rules => ?_
  split
  · exact .pure ⟨h, rfl⟩
  · refine h.subject.bind_same fun s => (Run.Lags.refl _).bind_same fun owners => ?_
    exact .pure ⟨.refl _, rfl⟩

theorem sharedRecords :
    Run.Lags fault Eq (e.sharedRecords caller' tenant collection access)
      (e.sharedRecords caller tenant collection access) :=
  h.subject.bind_same fun _ => .refl _

theorem compileRecords :
    Run.Lags fault Eq (e.compileRecords caller' tenant collection access)
      (e.compileRecords caller tenant collection access) := by
  unfold Engine.compileRecords
  rw [h.userId]
  refine (Run.Lags.refl _).bind_same fun reports => h.sharedOwners.bind fun shared' shared hs => ?_
  obtain ⟨next', owners'⟩ := shared'
  obtain ⟨next, owners⟩ := shared
  obtain ⟨hnext, rfl⟩ := hs
  cases owners' with
  | none => exact .refl _
  | some owners =>
    dsimp only
    rw [hnext.userId]
    exact hnext.sharedRecords.bind_same fun records => .refl _

/-- **A caller is given the filter of one they stand for**, or fails by the fault. -/
theorem filterFor (tenant : TenantId) (collection : CollectionId) (access : AccessType) :
    Run.Lags fault Eq (e.filterFor caller' tenant collection access)
      (e.filterFor caller tenant collection access) := by
  refine Run.Lags.bind_same ?_ fun f => .refl _
  unfold Engine.compile
  rw [h.userId]
  refine (Run.Lags.refl _).bind_same fun permission => ?_
  split
  · exact .refl _
  · split
    · exact .refl _
    · refine (Run.Lags.refl _).bind_same fun baseline => ?_
      split
      · exact .refl _
      · exact h.compileRecords

end StandsFor

end Engine

/-- Over a store, a user stands for the subject that they resolve to, unless users or groups are
failing. -/
theorem Store.Resolves.standsFor {s : Store} {settings : EngineSettings} {user : UserId}
    {subject : AccessSubject} (h : s.Resolves settings.maxGroupDepth user subject) :
    (s.engine settings).StandsFor (Provider.users ∈ s.failing ∨ Provider.groups ∈ s.failing)
      (.user user) (.subject subject) := by
  refine ⟨h.same_user.symm, ?_⟩
  by_cases hfault : Provider.users ∈ s.failing ∨ Provider.groups ∈ s.failing
  · cases hr : ((s.engine settings).resolveSubject user).outcome with
    | error error => exact .failed hfault error hr
    | ok subject' =>
      obtain ⟨husers, hgroups⟩ := answering_of_resolveSubject hr
      exact absurd hfault (not_or.2 ⟨husers, hgroups⟩)
  · have hr := resolveSubject_eq_ok_iff.2 ⟨not_or.1 hfault, h⟩
    exact .alike (.given subject subject hr rfl rfl)

/-! ### Subjects that were resolved before -/

namespace Deployment

/-- A change leaves alone what a user is resolved by: the memberships, the user's own entry and the
depth of nesting. -/
def Keeps (user : UserId) : Change → Prop
  | .store (.membership _) => False
  | .store (.user u) => u.id ≠ user
  | .maxGroupDepth _ => False
  | _ => True

variable {d : Deployment} {user : UserId} {subject : AccessSubject}

theorem resolves_apply {c : Change} (hc : Keeps user c)
    (h : d.store.Resolves d.settings.maxGroupDepth user subject) :
    (d.apply c).store.Resolves (d.apply c).settings.maxGroupDepth user subject := by
  cases c with
  | managerScope scope => exact h
  | maxGroupDepth depth => exact hc.elim
  | store m =>
    cases m with
    | membership m => exact hc.elim
    | user u =>
      -- the entry of another user is put in first and passed over
      refine h.of_eq ?_ fun _ => Iff.rfl
      have hput := find?_put (fun u : User => u.id) (k := user) (a := u)
        (l := d.store.users) fun u => decide_eq_true_iff (p := u.id = user)
      exact hput.trans (if_neg hc)
    | _ => exact h.of_eq rfl fun _ => Iff.rfl

theorem resolves_applyAll {changes : List Change} (hchanges : ∀ c ∈ changes, Keeps user c)
    (h : d.store.Resolves d.settings.maxGroupDepth user subject) :
    (d.applyAll changes).store.Resolves (d.applyAll changes).settings.maxGroupDepth user
      subject := by
  induction changes generalizing d with
  | nil => exact h
  | cons c changes ih =>
    exact ih (fun c' hc' => hchanges c' (List.mem_cons_of_mem c hc'))
      (resolves_apply (hchanges c List.mem_cons_self) h)

/-- **A resolved subject stays interchangeable with its user.**  After changes that leave alone what
the user is resolved by, every decision and every filter that the user is given is the one that the
subject is given; and while users and groups answer, so is every error. -/
theorem subject_stays_interchangeable (history changes : List Change) (user : UserId)
    (subject : AccessSubject)
    (h : ((ofHistory history).engine.resolveSubject user).outcome = .ok subject)
    (hchanges : ∀ c ∈ changes, Keeps user c) :
    let later := (ofHistory history).applyAll changes
    ((∀ record access d, (later.engine.evaluate user record access).outcome = .ok d →
        (later.engine.evaluateAs subject record access).outcome = .ok d) ∧
      ∀ tenant collection access f,
        (later.engine.filter user tenant collection access).outcome = .ok f →
          (later.engine.filterAs subject tenant collection access).outcome = .ok f) ∧
    (Provider.users ∉ later.store.failing → Provider.groups ∉ later.store.failing →
      (∀ record access, (later.engine.evaluate user record access).outcome =
        (later.engine.evaluateAs subject record access).outcome) ∧
      ∀ tenant collection access,
        (later.engine.filter user tenant collection access).outcome =
          (later.engine.filterAs subject tenant collection access).outcome) := by
  intro later
  have hstands := (resolves_applyAll hchanges (Store.resolveSubject_eq_ok_iff.1 h).2).standsFor
  refine ⟨⟨?_, ?_⟩, fun husers hgroups => ⟨?_, ?_⟩⟩
  · exact fun record access d hd => (hstands.evaluateFor record access).outcome_of_ok hd
  · exact fun tenant collection access f hf =>
      (hstands.filterFor tenant collection access).outcome_of_ok hf
  · exact fun record access =>
      (hstands.evaluateFor record access).outcome_eq (not_or.2 ⟨husers, hgroups⟩)
  · exact fun tenant collection access =>
      (hstands.filterFor tenant collection access).outcome_eq (not_or.2 ⟨husers, hgroups⟩)

/-- A user in a group, and a private collection. -/
def beforeRule : List Change :=
  [.store (.orgWideDefault ⟨⟨"t"⟩, ⟨"c"⟩, .privateAccess⟩),
    .store (.membership (.ofUser ⟨"g"⟩ ⟨"ann"⟩))]

/-- A rule for the group, another user and another scope. -/
def ruleForGroup : List Change :=
  [.store (.rule (.make ⟨"all", default⟩ ⟨"t"⟩ ⟨"c"⟩ (.criteriaBased .null) (.group ⟨"g"⟩) .read)),
    .store (.user ⟨⟨"bob"⟩, none, some ⟨"ann"⟩, none⟩), .managerScope .transitive]

/-- A subject that was resolved before the rule is given what the user is given. -/
theorem earlier_subject_meets_rule :
    let later := (ofHistory beforeRule).applyAll ruleForGroup
    ((ofHistory beforeRule).engine.resolveSubject ⟨"ann"⟩).outcome =
        .ok ⟨⟨"ann"⟩, none, none, [⟨"g"⟩]⟩ ∧
      (∀ c ∈ ruleForGroup, Keeps ⟨"ann"⟩ c) ∧
      (later.engine.evaluateAs ⟨⟨"ann"⟩, none, none, [⟨"g"⟩]⟩ ⟨⟨"t"⟩, ⟨"c"⟩, ⟨"r"⟩, none⟩
        .read).outcome = .ok (.granted (.sharingRule "all")) ∧
      (later.engine.filter ⟨"ann"⟩ ⟨"t"⟩ ⟨"c"⟩ .read).outcome =
        (later.engine.filterAs ⟨⟨"ann"⟩, none, none, [⟨"g"⟩]⟩ ⟨"t"⟩ ⟨"c"⟩ .read).outcome := by
  intro later
  have hresolved : ((ofHistory beforeRule).engine.resolveSubject ⟨"ann"⟩).outcome =
      .ok ⟨⟨"ann"⟩, none, none, [⟨"g"⟩]⟩ := rfl
  have hkeeps : ∀ c ∈ ruleForGroup, Keeps ⟨"ann"⟩ c := by
    simp [ruleForGroup, Keeps]
  obtain ⟨⟨hevaluate, -⟩, hsame⟩ := subject_stays_interchangeable beforeRule ruleForGroup ⟨"ann"⟩
    ⟨⟨"ann"⟩, none, none, [⟨"g"⟩]⟩ hresolved hkeeps
  exact ⟨hresolved, hkeeps, hevaluate ⟨⟨"t"⟩, ⟨"c"⟩, ⟨"r"⟩, none⟩ .read _ rfl,
    (hsame (by decide) (by decide)).2 ⟨"t"⟩ ⟨"c"⟩ .read⟩

end Deployment

end RecordAccess
