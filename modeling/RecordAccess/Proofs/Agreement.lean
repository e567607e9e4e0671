import RecordAccess.Proofs.Decisions
import RecordAccess.Proofs.Managers
import RecordAccess.Proofs.Predicates

/-!
# Filters and decisions agree

A compiled filter admits a record exactly when the decision grants the access
(`Store.decide_agrees`).  The two look at the data from opposite ends: the filter collects the
owners and the records that are open to a caller, the decision starts at one record and stops at the
first source that grants.  They meet source by source: managers
(`Store.Consistent.exists_managesReport`), rules (`Store.Consistent.exists_firstCovering`) and
shares (`Store.exists_grantingShare`).

Nothing is assumed of the providers.  A filter that could be compiled has asked all that a decision
asks for, so that the decision cannot fail either.
-/

namespace RecordAccess

variable {s : Store} {settings : EngineSettings} {tenant : TenantId}
  {collection : CollectionId} {record : Record} {access : AccessType} {caller : Caller}

theorem AccessSubject.isRecipient_iff {subject : AccessSubject} {w : ShareSubject} :
    subject.isRecipient w = true ↔
      w = .user subject.user ∨ ∃ g ∈ subject.groups, w = .group g := by
  cases w <;> simp [isRecipient, isInGroup]

namespace Engine

theorem mem_of_ruleOwners {e : Engine} {rules : List (SharingRule × RecordScope)}
    {owners us : List UserId} (h : (e.ruleOwners tenant rules owners).outcome = .ok (some us))
    {o : UserId} (ho : o ∈ owners) : o ∈ us := by
  induction rules generalizing owners with
  | nil => cases h; exact ho
  | cons rule rules ih =>
    obtain ⟨rule, scope⟩ := rule
    cases scope with
    | allRecords => cases h
    | ownedBy principal =>
      obtain ⟨users, -, hrest⟩ := Run.outcome_bind_eq_ok.1 h
      exact ih hrest (List.mem_append_left _ ho)

end Engine

namespace Store

/-! ### Rules -/

/-- Collecting the users of a principal finds an owner exactly when looking for the owner does. -/
theorem Consistent.exists_ownerIn (hs : s.Consistent) {principal : Principal}
    {users : List UserId}
    (h : ((s.engine settings).principalUsers tenant principal).outcome = .ok users)
    (owner : UserId) :
    ∃ b, ((s.engine settings).ownerIn owner tenant principal).outcome = .ok b ∧
      (b = true ↔ owner ∈ users) := by
  cases principal with
  | user id =>
    cases h
    exact ⟨decide (id = owner), rfl, by simp [eq_comm]⟩
  | group id => exact ⟨users.contains owner, Run.outcome_bind_of_ok h _, by simp⟩
  | queue id => exact ⟨users.contains owner, Run.outcome_bind_of_ok h _, by simp⟩
  | role id =>
    -- the filter lists who has the role, the decision looks at the role of the owner
    obtain ⟨hp, rfl⟩ := engine_ask_eq_ok.1 h
    have hp : (Query.user owner).provider ∉ s.failing := hp
    refine ⟨_, Run.outcome_bind_of_ok (engine_ask hp) _, hs.any_user.trans ?_⟩
    simp only [answer, List.mem_map, List.mem_filter]
    constructor
    · rintro ⟨u, hmem, hid, hrole⟩
      exact ⟨u, ⟨hmem, hrole⟩, hid⟩
    · rintro ⟨u, ⟨hmem, hrole⟩, hid⟩
      exact ⟨u, hmem, hid, hrole⟩

theorem Consistent.exists_firstCovering (hs : s.Consistent)
    {rules : List (SharingRule × RecordScope)} {owners : List UserId} {r : Option (List UserId)}
    (h : ((s.engine settings).ruleOwners record.tenant rules owners).outcome = .ok r)
    (hnew : ∀ o ∈ owners, record.owner ≠ some o) :
    ∃ found, ((s.engine settings).firstCovering record rules).outcome = .ok found ∧
      (found.isSome = true ↔ ∀ us, r = some us → ∃ o ∈ us, record.owner = some o) := by
  -- along the rules: none of those gone through covers the record, as `hnew` says of their owners
  induction rules generalizing owners with
  | nil =>
    cases h
    refine ⟨none, rfl, ?_⟩
    simpa using hnew
  | cons rule rules ih =>
    obtain ⟨rule, scope⟩ := rule
    cases scope with
    | allRecords =>
      cases h
      exact ⟨some rule, rfl, by simp⟩
    | ownedBy principal =>
      obtain ⟨users, husers, hrest⟩ := Run.outcome_bind_eq_ok.1 h
      cases ho : record.owner with
      | none =>
        -- a record that no one owns is covered by no rule about owners
        have hcovers : ((s.engine settings).covers record (.ownedBy principal)).outcome =
            .ok false := by
          simp [Engine.covers, ho]
        obtain ⟨found, hfound, hiff⟩ := ih hrest (by simp [ho])
        refine ⟨found, ?_, ho ▸ hiff⟩
        rw [Engine.firstCovering, Run.outcome_bind_of_ok hcovers]
        exact hfound
      | some owner =>
        obtain ⟨b, hb, hbiff⟩ := hs.exists_ownerIn husers owner
        have hcovers : ((s.engine settings).covers record (.ownedBy principal)).outcome =
            .ok b := by
          simp [Engine.covers, ho, hb]
        cases b with
        | true =>
          refine ⟨some rule, ?_, iff_of_true rfl ?_⟩
          · -- the decision stops here, the filter collects on and keeps the owner
            rw [Engine.firstCovering, Run.outcome_bind_of_ok hcovers]
            rfl
          · rintro us rfl
            have hmem := Engine.mem_of_ruleOwners hrest (List.mem_append_right _ (hbiff.1 rfl))
            exact ⟨owner, hmem, rfl⟩
        | false =>
          have hout : owner ∉ users := fun hmem => Bool.false_ne_true (hbiff.2 hmem)
          obtain ⟨found, hfound, hiff⟩ := ih hrest fun o hmem heq => by
            rcases List.mem_append.1 hmem with hmem | hmem
            · exact hnew o hmem heq
            · rw [ho] at heq
              cases heq
              exact hout hmem
          refine ⟨found, ?_, ho ▸ hiff⟩
          rw [Engine.firstCovering, Run.outcome_bind_of_ok hcovers]
          exact hfound

/-- Both resolve the caller alike, and the decision finds a rule exactly when the filter is open to
all owners or to the one of the record. -/
theorem Consistent.exists_grantingRule (hs : s.Consistent) {caller' : Caller}
    {r : Option (List UserId)}
    (h : ((s.engine settings).sharedOwners caller record.tenant record.collection access).outcome =
      .ok (caller', r)) :
    ∃ found, ((s.engine settings).grantingRule caller record access).outcome =
        .ok (caller', found) ∧
      (found.isSome = true ↔ ∀ us, r = some us → ∃ o ∈ us, record.owner = some o) := by
  obtain ⟨rules, hrules, hrest⟩ := Run.outcome_bind_eq_ok.1 h
  split at hrest
  · rename_i hempty
    cases hrest
    refine ⟨none, ?_, by simp⟩
    rw [Engine.grantingRule, Run.outcome_bind_of_ok hrules, if_pos hempty]
    rfl
  · rename_i hempty
    obtain ⟨subject, hsubject, hrest⟩ := Run.outcome_bind_eq_ok.1 hrest
    obtain ⟨owners, howners, heq⟩ := Run.outcome_bind_eq_ok.1 hrest
    cases heq
    obtain ⟨found, hfound, hiff⟩ := hs.exists_firstCovering howners (by simp)
    exact ⟨found, Engine.outcome_grantingRule hrules hempty hsubject hfound, hiff⟩

/-! ### Shares -/

/-- The records shared with a caller are those of the shares that a decision looks for, with the
user and with the user's groups. -/
theorem mem_of_sharedRecords {subject : AccessSubject} {records : List RecordId}
    (hsubject : ((s.engine settings).subjectOf caller).outcome = .ok subject)
    (h : ((s.engine settings).sharedRecords caller record.tenant record.collection access).outcome =
      .ok records) :
    Provider.sharing ∉ s.failing ∧
      (record.id ∈ records ↔
        (∃ share ∈ s.answer (.directShares record.collection record.id subject.user),
          share.gives record.tenant access = true) ∨
        ∃ share ∈ s.answer (.groupShares record.collection record.id subject.groups),
          share.gives record.tenant access = true) := by
  rw [Engine.sharedRecords, Run.outcome_bind_of_ok hsubject] at h
  obtain ⟨shares, hshares, heq⟩ := Run.outcome_bind_eq_ok.1 h
  obtain ⟨hp, rfl⟩ := engine_ask_eq_ok.1 hshares
  cases heq
  refine ⟨hp, ?_⟩
  simp only [List.mem_map, List.mem_filter, Bool.and_eq_true, decide_eq_true_eq,
    AccessSubject.isRecipient_iff, RecordShare.gives]
  -- the filter asks for the shares of the collection, the decision for those of the record
  constructor
  · rintro ⟨share, ⟨hin, ⟨ht, hl⟩, hw | hw⟩, hr⟩
    · obtain ⟨hmem, hc, -⟩ := mem_collectionShares.1 hin
      exact .inl ⟨share, mem_directShares.2 ⟨hmem, hc, hr, hw⟩, ht, hl⟩
    · obtain ⟨hmem, hc, -⟩ := mem_collectionShares.1 hin
      exact .inr ⟨share, mem_groupShares.2 ⟨hmem, hc, hr, hw⟩, ht, hl⟩
  · rintro (⟨share, hin, ht, hl⟩ | ⟨share, hin, ht, hl⟩)
    · obtain ⟨hmem, hc, hr, hw⟩ := mem_directShares.1 hin
      exact ⟨share, ⟨mem_collectionShares.2 ⟨hmem, hc, ht⟩, ⟨ht, hl⟩, .inl hw⟩, hr⟩
    · obtain ⟨hmem, hc, hr, hw⟩ := mem_groupShares.1 hin
      exact ⟨share, ⟨mem_collectionShares.2 ⟨hmem, hc, ht⟩, ⟨ht, hl⟩, .inr hw⟩, hr⟩

theorem exists_grantingShare {records : List RecordId}
    (h : ((s.engine settings).sharedRecords caller record.tenant record.collection access).outcome =
      .ok records) :
    ∃ source, ((s.engine settings).grantingShare caller record access).outcome = .ok source ∧
      (source.isSome = true ↔ record.id ∈ records) := by
  obtain ⟨subject, hsubject, -⟩ := Run.outcome_bind_eq_ok.1 h
  obtain ⟨hp, hmem⟩ := mem_of_sharedRecords hsubject h
  have hdirect : (Query.directShares record.collection record.id caller.userId).provider ∉
      s.failing := hp
  have hgroup : (Query.groupShares record.collection record.id
      (sortedGroups subject.groups)).provider ∉ s.failing := hp
  refine ⟨_, Engine.outcome_grantingShare hsubject (engine_ask hdirect) (engine_ask hgroup)
    groupShares_eq_nil, ?_⟩
  rw [hmem, Option.isSome_or, Option.isSome_map, Option.isSome_map, Bool.or_eq_true,
    List.find?_isSome, List.find?_isSome, Engine.user_of_subjectOf hsubject]
  refine or_congr Iff.rfl (exists_congr fun share => and_congr_left' ?_)
  rw [mem_groupShares, mem_groupShares]
  simp only [mem_sortedGroups]

/-! ### All sources -/

theorem Consistent.exists_managesReport (hs : s.Consistent) (record : Record)
    {reports : List UserId}
    (h : ((s.engine settings).subordinates caller.userId).outcome = .ok reports) :
    ∃ b, ((s.engine settings).managesOwner caller record).outcome = .ok b ∧
      (b = true ↔ ∃ o ∈ reports, record.owner = some o) := by
  have husers : ∀ c : Query, c.provider = .users →
      ((s.engine settings).ask c).outcome = .ok (s.answer c) := fun c hc =>
    engine_ask (hc ▸ users_of_subordinates h)
  obtain ⟨b, hb, hiff⟩ := hs.exists_managesOwner (fun u => husers (.user u) rfl) caller record
  refine ⟨b, hb, hiff.trans ?_⟩
  simp only [mem_subordinates_iff (fun m => husers (.subordinates m) rfl) h, and_comm]

/-- Rules resolve a caller, but never make another user of them. -/
theorem userId_of_sharedOwners {e : Engine} {caller' : Caller} {owners : Option (List UserId)}
    (h : (e.sharedOwners caller tenant collection access).outcome = .ok (caller', owners)) :
    caller'.userId = caller.userId := by
  obtain ⟨rules, -, hrest⟩ := Run.outcome_bind_eq_ok.1 h
  split at hrest
  · cases hrest
    rfl
  · obtain ⟨subject, hsubject, hrest⟩ := Run.outcome_bind_eq_ok.1 hrest
    obtain ⟨owners, -, heq⟩ := Run.outcome_bind_eq_ok.1 hrest
    cases heq
    exact Engine.user_of_subjectOf hsubject

theorem Consistent.decideRecord_agrees (hs : s.Consistent) {f : Option SharingPredicate}
    (h : ((s.engine settings).compileRecords caller record.tenant record.collection
      access).outcome = .ok f) :
    ∃ d, ((s.engine settings).decideRecord caller record access).outcome = .ok d ∧
      d.isGranted = admits f record.id record.owner := by
  obtain ⟨reports, hreports, hrest⟩ := Run.outcome_bind_eq_ok.1 h
  obtain ⟨⟨caller', owners⟩, howners, hrest⟩ := Run.outcome_bind_eq_ok.1 hrest
  obtain ⟨manages, hmanages, hmiff⟩ := hs.exists_managesReport record hreports
  obtain ⟨rule, hrule, hriff⟩ := hs.exists_grantingRule howners
  cases owners with
  | none =>
    -- a rule opens every record
    cases hrest
    have hsome : rule.isSome = true := hriff.2 (by simp)
    refine ⟨.first _ manages rule none, Engine.outcome_decideRecord hmanages hrule ?_, ?_⟩
    · rintro rfl
      cases hsome
    · simp [Decision.isGranted_first, hsome]
  | some us =>
    obtain ⟨records, hrecords, heq⟩ := Run.outcome_bind_eq_ok.1 hrest
    obtain ⟨share, hshare, hsiff⟩ := exists_grantingShare hrecords
    cases heq
    refine ⟨_, Engine.outcome_decideRecord hmanages hrule fun _ => hshare, ?_⟩
    rw [Bool.eq_iff_iff, Decision.isGranted_first, admits_some, Engine.matches_compiled,
      userId_of_sharedOwners howners]
    simp only [Bool.or_eq_true, decide_eq_true_eq, hmiff, hriff, hsiff, or_assoc,
      Option.some.injEq, forall_eq']

theorem Consistent.decide_agrees (hs : s.Consistent) (record : Record)
    {f : Option SharingPredicate}
    (h : ((s.engine settings).compile caller record.tenant record.collection access).outcome =
      .ok f) :
    ∃ d, ((s.engine settings).decide caller record access).outcome = .ok d ∧
      d.isGranted = admits f record.id record.owner := by
  -- both take the same turns until single records are looked at
  obtain ⟨permission, hpermission, h⟩ := Run.outcome_bind_eq_ok.1 h
  rw [Engine.decide, Run.outcome_bind_of_ok hpermission]
  split at h
  · rename_i hdenied
    cases h
    exact ⟨_, by rw [if_pos hdenied]; rfl, rfl⟩
  · rename_i hpermits
    rw [if_neg hpermits]
    split at h
    · rename_i hbypass
      cases h
      exact ⟨_, by rw [if_pos hbypass]; rfl, rfl⟩
    · rename_i hbypass
      obtain ⟨baseline, hbaseline, h⟩ := Run.outcome_bind_eq_ok.1 h
      rw [if_neg hbypass, Run.outcome_bind_of_ok hbaseline]
      split at h
      · rename_i hgrants
        cases h
        exact ⟨_, by rw [if_pos hgrants]; rfl, rfl⟩
      · rename_i hgrants
        rw [if_neg hgrants]
        exact hs.decideRecord_agrees h

end Store

/-! ### Agreement -/

/-- When the filter can be compiled, every decision can be made, and it grants the access exactly
when there is no filter or the filter matches the record. -/
def Agree (filter : Run (Option SharingPredicate))
    (decision : RecordId → Option UserId → Run Decision) : Prop :=
  ∀ f, filter.outcome = .ok f → ∀ record owner, ∃ d, (decision record owner).outcome = .ok d ∧
    (d.isGranted = true ↔ f = none ∨ ∃ p, f = some p ∧ p.matchesRecord record owner = true)

namespace Store

theorem Consistent.filterFor_agree (hs : s.Consistent) (settings : EngineSettings)
    (caller : Caller) (tenant : TenantId) (collection : CollectionId) (access : AccessType) :
    Agree ((s.engine settings).filterFor caller tenant collection access) fun record owner =>
      (s.engine settings).evaluateFor caller ⟨tenant, collection, record, owner⟩ access := by
  intro f h record owner
  rw [Engine.outcome_filterFor] at h
  obtain ⟨d, hd, hgranted⟩ := hs.decide_agrees ⟨tenant, collection, record, owner⟩ h
  refine ⟨d, Engine.outcome_evaluateFor.trans hd, ?_⟩
  rw [hgranted, admits_iff]

/-- **Filters and decisions agree.**  They do for every user and for every subject, whatever a
store has come to hold and whichever providers fail. -/
theorem filter_agrees_with_decisions (history : List Mutation) (settings : EngineSettings)
    (tenant : TenantId) (collection : CollectionId) (access : AccessType) :
    (∀ user, Agree (((ofHistory history).engine settings).filter user tenant collection access)
      fun record owner => ((ofHistory history).engine settings).evaluate user
        ⟨tenant, collection, record, owner⟩ access) ∧
    ∀ subject,
      Agree (((ofHistory history).engine settings).filterAs subject tenant collection access)
      fun record owner => ((ofHistory history).engine settings).evaluateAs subject
        ⟨tenant, collection, record, owner⟩ access := by
  have hs := consistent_ofHistory history
  constructor
  · exact fun user => hs.filterFor_agree settings (.user user) tenant collection access
  · exact fun subject => hs.filterFor_agree settings (.subject subject) tenant collection access

/-- A private collection where a lead and a rep manage each other, the rep's group is nested in
itself, and the groups do not answer. -/
def cyclicHistory : List Mutation :=
  [.orgWideDefault ⟨⟨"t"⟩, ⟨"c"⟩, .privateAccess⟩,
    .user ⟨⟨"lead"⟩, none, some ⟨"rep"⟩, none⟩, .user ⟨⟨"rep"⟩, none, some ⟨"lead"⟩, none⟩,
    .membership (.ofUser ⟨"g"⟩ ⟨"rep"⟩), .membership (.nested ⟨"g"⟩ ⟨"g"⟩), .failProvider .groups]

/-- The filter of a resolved subject asks for no groups, so it can be compiled and so can every
decision. -/
theorem lead_reaches_rep :
    ∃ d, (((ofHistory cyclicHistory).engine ⟨0, .transitive⟩).evaluateAs ⟨⟨"lead"⟩, none, none, []⟩
        ⟨⟨"t"⟩, ⟨"c"⟩, ⟨"r"⟩, some ⟨"rep"⟩⟩ .delete).outcome = .ok d ∧ d.isGranted = true := by
  have hf : (((ofHistory cyclicHistory).engine ⟨0, .transitive⟩).filterAs
      ⟨⟨"lead"⟩, none, none, []⟩ ⟨"t"⟩ ⟨"c"⟩ .delete).outcome =
      .ok (some ⟨[.ownerEq ⟨"lead"⟩, .ownerIn [⟨"lead"⟩, ⟨"rep"⟩]]⟩) := by
    rfl
  obtain ⟨d, hd, hiff⟩ := (filter_agrees_with_decisions cyclicHistory ⟨0, .transitive⟩ ⟨"t"⟩ ⟨"c"⟩
    .delete).2 ⟨⟨"lead"⟩, none, none, []⟩ _ hf ⟨"r"⟩ (some ⟨"rep"⟩)
  exact ⟨d, hd, hiff.2 (.inr ⟨_, rfl, by decide⟩)⟩

end Store

end RecordAccess
