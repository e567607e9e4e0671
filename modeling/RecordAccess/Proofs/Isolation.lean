import RecordAccess.Proofs.Answers
import RecordAccess.Proofs.Tables

/-!
# Isolation of tenants and collections

What a tenant may see of a collection depends on that tenant and collection alone.  Two stores, or
two sets of tables, that are the same for a tenant and a collection (`Store.SameFor`,
`Database.SameFor`) may differ in the defaults, the rules and the shares of all others, and no
request for the tenant and the collection tells them apart (`Engine.other_tenants_unseen`).
-/

namespace RecordAccess

/-! ### Requests that tell engines apart -/

/-- No request for a tenant and a collection tells two engines apart, by a value or by an error. -/
structure Engine.Indistinguishable (tenant : TenantId) (collection : CollectionId)
    (e' e : Engine) : Prop where
  evaluate : ∀ user id owner access,
    (e'.evaluate user ⟨tenant, collection, id, owner⟩ access).outcome =
      (e.evaluate user ⟨tenant, collection, id, owner⟩ access).outcome
  evaluateAs : ∀ subject id owner access,
    (e'.evaluateAs subject ⟨tenant, collection, id, owner⟩ access).outcome =
      (e.evaluateAs subject ⟨tenant, collection, id, owner⟩ access).outcome
  filter : ∀ user access, (e'.filter user tenant collection access).outcome =
    (e.filter user tenant collection access).outcome
  filterAs : ∀ subject access, (e'.filterAs subject tenant collection access).outcome =
    (e.filterAs subject tenant collection access).outcome

theorem Engine.Alike.indistinguishable {tenant : TenantId} {collection : CollectionId}
    {e' e : Engine} (h : Engine.Alike tenant collection e' e) :
    Engine.Indistinguishable tenant collection e' e where
  evaluate user id owner access :=
    @outcome_evaluateFor ⟨tenant, collection, id, owner⟩ e' e h (.user user) access
  evaluateAs subject id owner access :=
    @outcome_evaluateFor ⟨tenant, collection, id, owner⟩ e' e h (.subject subject) access
  filter user access := h.outcome_filterFor (.user user) access
  filterAs subject access := h.outcome_filterFor (.subject subject) access

/-! ### Stores -/

namespace Store

/-- Two stores have the same users and memberships, and for a tenant the same default, rules and
shares of a collection. -/
structure SameSharing (tenant : TenantId) (collection : CollectionId) (s' s : Store) : Prop where
  users : SameMembers s'.users s.users
  memberships : SameMembers s'.memberships s.memberships
  orgWideDefault : s'.answer (.orgWideDefault tenant collection) =
    s.answer (.orgWideDefault tenant collection)
  rules : s'.rules.filter (fun r => r.tenant = tenant && r.collection = collection) =
    s.rules.filter fun r => r.tenant = tenant && r.collection = collection
  shares : ∀ record, s'.shares.filter (fun share =>
      share.tenant = tenant && share.collection = collection && share.record = record) =
    s.shares.filter fun share =>
      share.tenant = tenant && share.collection = collection && share.record = record

/-- Two stores have the same failing providers and the same permissions for a collection as well. -/
structure SameFor (tenant : TenantId) (collection : CollectionId) (s' s : Store) : Prop extends
    SameSharing tenant collection s' s where
  failing : SameMembers s'.failing s.failing
  permission : ∀ user, s'.answer (.objectPermission user collection) =
    s.answer (.objectPermission user collection)

variable {tenant : TenantId} {collection : CollectionId} {s' s : Store}

theorem outcome_ask_congr (hfailing : SameMembers s'.failing s.failing) {c : Query}
    (h : s'.answer c = s.answer c) : (s'.ask c).outcome = (s.ask c).outcome := by
  by_cases hp : c.provider ∈ s.failing
  · rw [ask_of_failing ((hfailing _).2 hp), ask_of_failing hp]
  · rw [ask_eq_ok.2 ⟨mt (hfailing _).1 hp, h⟩, ask_eq_ok.2 ⟨hp, rfl⟩]

theorem Consistent.answer_user_congr (hs' : s'.Consistent) (hs : s.Consistent)
    (h : SameMembers s'.users s.users) (id : UserId) :
    s'.answer (.user id) = s.answer (.user id) := by
  refine Option.ext fun u => ?_
  rw [hs'.find_user, hs.find_user, h u]

theorem SameSharing.filter_shares (h : SameSharing tenant collection s' s) (record : RecordId)
    (p : RecordShare → Bool) :
    (s'.shares.filter fun share => share.collection = collection && share.record = record &&
        p share).filter (fun share => share.tenant = tenant) =
      (s.shares.filter fun share => share.collection = collection && share.record = record &&
        p share).filter fun share => share.tenant = tenant := by
  have hsplit : ∀ shares : List RecordShare,
      (shares.filter fun share => share.collection = collection && share.record = record &&
        p share).filter (fun share => share.tenant = tenant) =
      (shares.filter fun share => share.tenant = tenant && share.collection = collection &&
        share.record = record).filter p := by
    intro shares
    rw [List.filter_filter, List.filter_filter]
    refine List.filter_congr fun share _ => ?_
    ac_rfl
  rw [hsplit, hsplit, h.shares]

/-- **Stores with the same sharing for a tenant and a collection give answers that agree**, provided
that they find the same users. -/
theorem SameSharing.agree (h : SameSharing tenant collection s' s)
    (huser : ∀ id, s'.answer (.user id) = s.answer (.user id)) {c : Query}
    (hc : c.Concerns tenant collection) : c.Agree tenant (s'.answer c) (s.answer c) := by
  cases c with
  | objectPermission => exact hc.elim
  | orgWideDefault =>
    obtain ⟨rfl, rfl⟩ := hc
    exact h.orgWideDefault
  | activeRules =>
    obtain ⟨rfl, rfl⟩ := hc
    have hactive := congrArg (List.filter (·.active)) h.rules
    rw [List.filter_filter, List.filter_filter] at hactive
    simpa only [Query.Agree, answer, Bool.and_comm] using hactive
  | directShares _ record user =>
    cases hc
    exact h.filter_shares record _
  | groupShares _ record groups =>
    obtain ⟨rfl, -⟩ := hc
    exact h.filter_shares record _
  | collectionShares =>
    obtain ⟨rfl, rfl⟩ := hc
    -- every share is among those of its own record
    intro share
    have hshares := congrArg (share ∈ ·) (h.shares share.record)
    simp only [List.mem_filter, Bool.and_eq_true, decide_eq_true_eq, and_true] at hshares
    rw [mem_collectionShares, mem_collectionShares, and_comm (a := share.collection = _), hshares]
  | user id => exact huser id
  | subordinates => exact h.users.filter _
  | roleHolders => exact (h.users.filter _).map _
  | directGroups => exact (h.memberships.filter _).map _
  | parentGroups => exact (h.memberships.filter _).map _
  | directUsers => exact ((h.memberships.filter _).map _).map _
  | childGroups => exact ((h.memberships.filter _).map _).map _

/-- Engines over consistent stores that are the same for a tenant and a collection are answered
alike. -/
theorem SameFor.alike (h : SameFor tenant collection s' s) (hs' : s'.Consistent)
    (hs : s.Consistent) (settings : EngineSettings) :
    Engine.Alike tenant collection (s'.engine settings) (s.engine settings) where
  settings := rfl
  permission user := outcome_ask_congr h.failing (h.permission user)
  served p := by
    by_cases hp : p ∈ s.failing
    · refine .never (.providerUnavailable p.name "injected failure") fun c hc _ => ?_
      subst hc
      exact ⟨ask_of_failing ((h.failing _).2 hp), ask_of_failing hp⟩
    · refine .always fun c hc hconcerns => ?_
      subst hc
      exact ⟨_, _, engine_ask (mt (h.failing _).1 hp), engine_ask hp,
        h.agree (hs'.answer_user_congr hs h.users) hconcerns⟩

end Store

/-! ### Tables -/

namespace Database

/-- Two sets of tables have the same users and memberships, and for a tenant the same default, rules
and shares of a collection. -/
structure SameFor (tenant : TenantId) (collection : CollectionId) (d' d : Database) : Prop where
  users : SameMembers d'.users d.users
  /-- Where an id is there repeatedly, the same row comes first. -/
  user : ∀ id : UserId, d'.users.find? (fun r => r.id = some id.text) =
    d.users.find? fun r => r.id = some id.text
  memberships : SameMembers d'.memberships d.memberships
  orgWideDefault : d'.orgWideDefaults.find? (fun r =>
      r.tenant = some tenant.text && r.collection = some collection.text) =
    d.orgWideDefaults.find? fun r =>
      r.tenant = some tenant.text && r.collection = some collection.text
  rules : (d'.rules.filter fun r =>
      r.tenant = some tenant.text && r.collection = some collection.text).mergeSort createdNoLater =
    (d.rules.filter fun r =>
      r.tenant = some tenant.text && r.collection = some collection.text).mergeSort createdNoLater
  shares : ∀ record : RecordId, d'.shares.filter (fun r => r.tenant = some tenant.text &&
      r.collection = some collection.text && r.record = some record.text) =
    d.shares.filter fun r => r.tenant = some tenant.text &&
      r.collection = some collection.text && r.record = some record.text

/-- The engine over tables, with object permissions from elsewhere. -/
def engine (d : Database) (health : Health) (permissions : Providers)
    (settings : EngineSettings) : Engine :=
  ⟨d.providers health permissions, settings⟩

variable {tenant : TenantId} {collection : CollectionId} {d' d : Database}

/-- The contents of such tables have the same sharing. -/
theorem SameFor.contents (h : SameFor tenant collection d' d) (hd' : d'.isComplete = true)
    (hd : d.isComplete = true) : Store.SameSharing tenant collection d'.contents d.contents where
  users := h.users.filterMap _
  memberships := h.memberships.filterMap _
  orgWideDefault := by
    rw [contents_orgWideDefault hd', contents_orgWideDefault hd, h.orgWideDefault]
  rules := by
    -- rows are sorted and become models, and which are left can be chosen before or after
    have hrules : ∀ d : Database,
        (d.contents.rules.filter fun r => r.tenant = tenant && r.collection = collection) =
          ((d.rules.filter fun r => r.tenant = some tenant.text &&
            r.collection = some collection.text).mergeSort createdNoLater).filterMap
              RuleRow.model? := by
      intro d
      rw [← filter_mergeSort createdNoLater_trans createdNoLater_total]
      refine (filterMap_filter_eq fun r _ rule hrule => ?_).symm
      have h := RuleRow.model?_eq_some.1 hrule
      rw [column_eq_iff h.tenant, column_eq_iff h.collection]
    rw [hrules, hrules, h.rules]
  shares record := by
    have hshares : ∀ d : Database, (d.contents.shares.filter fun share =>
        share.tenant = tenant && share.collection = collection && share.record = record) =
          (d.shares.filter fun r => r.tenant = some tenant.text &&
            r.collection = some collection.text && r.record = some record.text).filterMap
              ShareRow.model? := by
      intro d
      refine (filterMap_filter_eq fun r _ share hshare => ?_).symm
      obtain ⟨ht, hcol, hrec, -⟩ := ShareRow.columns_of_model? hshare
      rw [column_eq_iff ht, column_eq_iff hcol, column_eq_iff hrec]
    rw [hshares, hshares, h.shares]

theorem needsServer_of_concerns {c : Query} (hc : c.Concerns tenant collection) :
    needsServer c = true := by
  cases c with
  | objectPermission => exact hc.elim
  | groupShares => simpa [needsServer] using hc.2
  | _ => rfl

/-- A server at fault answers no question that reaches it. -/
theorem outcome_ask_of_fault {health : Health} {cause : DatabaseCause}
    (hcause : health.cause? = some cause) (permissions : Providers) {c : Query}
    (hc : needsServer c = true) :
    (d.ask health permissions c).outcome = .error cause.toError := by
  unfold ask
  rw [hcause]
  dsimp only
  rw [if_pos hc]
  rfl

/-- Complete tables at a server without fault answer as the store of their models does. -/
theorem engine_ask (hd : d.isComplete = true) {health : Health} (hhealth : health.cause? = none)
    (permissions : Providers) (settings : EngineSettings) {c : Query}
    (hc : c.provider ≠ .objectPermissions) :
    ((d.engine health permissions settings).ask c).outcome = .ok (d.contents.answer c) := by
  show (d.ask health permissions c).outcome = _
  unfold ask
  rw [hhealth]
  exact outcome_query hd permissions hc

/-- Engines over complete tables that are the same for a tenant and a collection are answered
alike. -/
theorem SameFor.alike (h : SameFor tenant collection d' d) (hd' : d'.isComplete = true)
    (hd : d.isComplete = true) (health : Health) {permissions' permissions : Providers}
    (hpermissions : ∀ user, (permissions'.ask (.objectPermission user collection)).outcome =
      (permissions.ask (.objectPermission user collection)).outcome)
    (settings : EngineSettings) :
    Engine.Alike tenant collection (d'.engine health permissions' settings)
      (d.engine health permissions settings) where
  settings := rfl
  permission user := by
    have hask : ∀ (d : Database) (permissions : Providers),
        (d.ask health permissions (.objectPermission user collection)).outcome =
          (permissions.ask (.objectPermission user collection)).outcome := by
      intro d permissions
      unfold ask
      cases health.cause? <;> rfl
    exact (hask d' permissions').trans ((hpermissions user).trans (hask d permissions).symm)
  served p := by
    -- a server at fault fails both, and one without fault answers from complete tables
    cases hhealth : health.cause? with
    | some cause =>
      exact .never cause.toError fun c _ hc =>
        ⟨outcome_ask_of_fault hhealth _ (needsServer_of_concerns hc),
          outcome_ask_of_fault hhealth _ (needsServer_of_concerns hc)⟩
    | none =>
      have huser : ∀ id, d'.contents.answer (.user id) = d.contents.answer (.user id) := by
        intro id
        rw [contents_user hd', contents_user hd, h.user]
      exact .always fun c _ hc =>
        ⟨_, _, engine_ask hd' hhealth permissions' settings hc.provider_ne,
          engine_ask hd hhealth permissions settings hc.provider_ne,
          (h.contents hd' hd).agree huser hc⟩

end Database

/-! ### No request sees other tenants -/

namespace Engine

/-- **Other tenants and collections are not seen.**  No request for a tenant and a collection tells
two stores apart that are the same for them, or two complete sets of tables, whatever else they
hold for others. -/
theorem other_tenants_unseen (tenant : TenantId) (collection : CollectionId)
    (settings : EngineSettings) :
    (∀ history' history,
      Store.SameFor tenant collection (.ofHistory history') (.ofHistory history) →
        Indistinguishable tenant collection ((Store.ofHistory history').engine settings)
          ((Store.ofHistory history).engine settings)) ∧
    ∀ (d' d : Database) (health : Health) (permissions' permissions : Providers),
      d'.isComplete = true → d.isComplete = true →
      (∀ user, (permissions'.ask (.objectPermission user collection)).outcome =
        (permissions.ask (.objectPermission user collection)).outcome) →
      Database.SameFor tenant collection d' d →
        Indistinguishable tenant collection (d'.engine health permissions' settings)
          (d.engine health permissions settings) := by
  constructor
  · intro history' history h
    exact (h.alike (Store.consistent_ofHistory history') (Store.consistent_ofHistory history)
      settings).indistinguishable
  · intro d' d health permissions' permissions hd' hd hpermissions h
    exact (h.alike hd' hd health hpermissions settings).indistinguishable

/-- A private collection of one tenant with a share of a record. -/
def onlyOwn : List Mutation :=
  [.orgWideDefault ⟨⟨"acme"⟩, ⟨"cases"⟩, .privateAccess⟩, .user ⟨⟨"ann"⟩, none, none, none⟩,
    .recordShare (.make ⟨"own", default⟩ ⟨"acme"⟩ ⟨"cases"⟩ ⟨"r"⟩ (.user ⟨"ann"⟩) .read)]

/-- The same, after another tenant shared the same record with the same user, and more of it. -/
def amongOthers : List Mutation :=
  .recordShare (.make ⟨"foreign", default⟩ ⟨"globex"⟩ ⟨"cases"⟩ ⟨"r"⟩ (.user ⟨"ann"⟩) .readWrite) ::
    .rule (.make ⟨"all", default⟩ ⟨"globex"⟩ ⟨"cases"⟩ (.criteriaBased .null) (.user ⟨"ann"⟩)
      .readWrite) :: onlyOwn

/-- One share of a record. -/
def ownTables : Database where
  shares := [⟨some "own", some "acme", some "cases", some "r", some "USER", some "ann",
    some "READ", none, some default⟩]

/-- The same, after a share of the same record by another tenant. -/
def tablesAmongOthers : Database where
  shares := ⟨some "foreign", some "globex", some "cases", some "r", some "USER", some "ann",
    some "READ_WRITE", none, some default⟩ :: ownTables.shares

/-- A share of another tenant gives nothing, and it does not hide the share of the own one. -/
theorem foreign_share_unseen :
    Store.SameFor ⟨"acme"⟩ ⟨"cases"⟩ (.ofHistory amongOthers) (.ofHistory onlyOwn) ∧
      Database.SameFor ⟨"acme"⟩ ⟨"cases"⟩ tablesAmongOthers ownTables ∧
      (((Store.ofHistory amongOthers).engine ⟨10, .direct⟩).evaluate ⟨"ann"⟩
        ⟨⟨"acme"⟩, ⟨"cases"⟩, ⟨"r"⟩, none⟩ .read).outcome = .ok (.granted (.recordShare "own")) ∧
      Indistinguishable ⟨"acme"⟩ ⟨"cases"⟩
        (tablesAmongOthers.engine .healthy (Store.ofHistory amongOthers).providers ⟨10, .direct⟩)
        (ownTables.engine .healthy (Store.ofHistory onlyOwn).providers ⟨10, .direct⟩) := by
  have h := other_tenants_unseen ⟨"acme"⟩ ⟨"cases"⟩ ⟨10, .direct⟩
  have hstores : Store.SameFor ⟨"acme"⟩ ⟨"cases"⟩ (.ofHistory amongOthers) (.ofHistory onlyOwn) :=
    ⟨⟨.refl _, .refl _, rfl, rfl, fun _ => rfl⟩, .refl _, fun _ => rfl⟩
  have htables : Database.SameFor ⟨"acme"⟩ ⟨"cases"⟩ tablesAmongOthers ownTables :=
    ⟨.refl _, fun _ => rfl, .refl _, rfl, rfl, fun record => by
      simp [tablesAmongOthers, ownTables]⟩
  refine ⟨hstores, htables, ?_, ?_⟩
  · exact ((h.1 amongOthers onlyOwn hstores).evaluate ⟨"ann"⟩ ⟨"r"⟩ none .read).trans rfl
  · exact h.2 tablesAmongOthers ownTables .healthy _ _ (by decide) (by decide) (fun _ => rfl)
      htables

end Engine

end RecordAccess
