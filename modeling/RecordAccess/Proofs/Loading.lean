import RecordAccess.Proofs.Failures
import RecordAccess.Proofs.Isolation
import RecordAccess.Store.Snapshot

/-!
# Loading tables into a store

The models of all rows can be loaded into a store (`Database.snapshot`).  Over complete tables with
distinct users and defaults, the engine answers every request as the engine over that store does
(`Database.answers_as_loaded`): with the same decision and its reason, and with the same clauses of
a filter.

A store keeps its tables in another form than they were loaded in: what is replaced by key comes in
reverse, and memberships form a set.  Keys that are distinct are found nevertheless.
-/

namespace RecordAccess

/-! ### Loading one kind of entry -/

theorem filter_key_ne {α κ : Type} [DecidableEq κ] {key : α → κ} {k : κ} {l : List α}
    (h : k ∉ l.map key) : (l.filter fun e => key e ≠ k) = l :=
  List.filter_eq_self.2 fun e he =>
    decide_eq_true fun heq => h (List.mem_map.2 ⟨e, he, heq⟩)

theorem nodup_map_middle {α κ : Type} {key : α → κ} {a : α} {as bs : List α}
    (h : ((a :: as ++ bs).map key).Nodup) :
    key a ∉ bs.map key ∧ ((as ++ a :: bs).map key).Nodup := by
  refine ⟨fun ha => ?_, ((List.perm_middle.map key).nodup_iff).2 h⟩
  simp only [List.cons_append, List.map_cons, List.nodup_cons, List.map_append] at h
  exact h.1 (List.mem_append_right _ ha)

namespace Store

variable (s : Store)

theorem applyAll_append (before after : List Mutation) :
    s.applyAll (before ++ after) = (s.applyAll before).applyAll after :=
  List.foldl_append

theorem applyAll_defaultPermission (p : Option ObjectPermission) :
    ∃ p', s.applyAll (p.toList.map .defaultPermission) = { s with defaultPermission := p' } := by
  cases p with
  | none => exact ⟨_, rfl⟩
  | some p => exact ⟨p, rfl⟩

theorem applyAll_permissions (entries : List PermissionEntry) :
    ∃ permissions, s.applyAll (entries.map fun p => .permission p.user p.collection p.permission) =
      { s with permissions } := by
  induction entries generalizing s with
  | nil => exact ⟨_, rfl⟩
  | cons p entries ih => exact ih (s.apply (.permission p.user p.collection p.permission))

theorem applyAll_orgWideDefaults {ds : List OrgWideDefault}
    (h : ((ds ++ s.orgWideDefaults).map fun d => (d.tenant, d.collection)).Nodup) :
    s.applyAll (ds.map .orgWideDefault) =
      { s with orgWideDefaults := ds.reverse ++ s.orgWideDefaults } := by
  induction ds generalizing s with
  | nil => rfl
  | cons d ds ih =>
    obtain ⟨hd, hds⟩ := nodup_map_middle h
    have hput : s.apply (.orgWideDefault d) =
        { s with orgWideDefaults := d :: s.orgWideDefaults } := by
      rw [apply, filter_key_ne hd]
    rw [List.map_cons, applyAll, List.foldl_cons, hput]
    refine (ih _ hds).trans ?_
    rw [List.reverse_cons, List.append_assoc, List.singleton_append]

theorem applyAll_rules (rules : List SharingRule) :
    s.applyAll (rules.map .rule) = { s with rules := s.rules ++ rules } := by
  induction rules generalizing s with
  | nil => simp [applyAll]
  | cons r rules ih =>
    refine (ih (s.apply (.rule r))).trans ?_
    simp [apply]

theorem applyAll_shares (shares : List RecordShare) :
    s.applyAll (shares.map .recordShare) = { s with shares := s.shares ++ shares } := by
  induction shares generalizing s with
  | nil => simp [applyAll]
  | cons share shares ih =>
    refine (ih (s.apply (.recordShare share))).trans ?_
    simp [apply]

theorem applyAll_users {us : List User} (h : ((us ++ s.users).map (·.id)).Nodup) :
    s.applyAll (us.map .user) = { s with users := us.reverse ++ s.users } := by
  induction us generalizing s with
  | nil => rfl
  | cons u us ih =>
    obtain ⟨hu, hus⟩ := nodup_map_middle h
    have hput : s.apply (.user u) = { s with users := u :: s.users } := by
      rw [apply, filter_key_ne hu]
    rw [List.map_cons, applyAll, List.foldl_cons, hput]
    refine (ih _ hus).trans ?_
    rw [List.reverse_cons, List.append_assoc, List.singleton_append]

theorem applyAll_memberships (ms : List Membership) :
    ∃ memberships, s.applyAll (ms.map .membership) = { s with memberships } ∧
      SameMembers memberships (s.memberships ++ ms) := by
  induction ms generalizing s with
  | nil => exact ⟨_, rfl, by simp [SameMembers]⟩
  | cons m ms ih =>
    obtain ⟨memberships, hstore, hsame⟩ := ih (s.apply (.membership m))
    refine ⟨memberships, hstore, fun x => (hsame x).trans ?_⟩
    by_cases hm : m ∈ s.memberships
    · simp only [apply, if_pos hm, List.mem_append, List.mem_cons]
      constructor
      · exact fun h => h.imp_right .inr
      · rintro (h | rfl | h)
        · exact .inl h
        · exact .inl hm
        · exact .inr h
    · simp [apply, if_neg hm]

end Store

/-! ### Loading a snapshot -/

/-- What a store with a snapshot in it holds, where the snapshot has distinct users and defaults. -/
theorem Snapshot.toStore_eq (s : Snapshot)
    (hdefaults : (s.orgWideDefaults.map fun d => (d.tenant, d.collection)).Nodup)
    (husers : (s.users.map (·.id)).Nodup) :
    ∃ defaultPermission permissions memberships, s.toStore =
        { defaultPermission, permissions, orgWideDefaults := s.orgWideDefaults.reverse,
          rules := s.rules, shares := s.shares, users := s.users.reverse, memberships } ∧
      SameMembers memberships s.memberships := by
  obtain ⟨p, hp⟩ := Store.empty.applyAll_defaultPermission s.defaultPermission
  obtain ⟨ps, hps⟩ := Store.applyAll_permissions { defaultPermission := p } s.permissions
  obtain ⟨ms, hms, hsame⟩ := Store.applyAll_memberships
    { defaultPermission := p, permissions := ps, orgWideDefaults := s.orgWideDefaults.reverse,
      rules := s.rules, shares := s.shares, users := s.users.reverse } s.memberships
  refine ⟨p, ps, ms, ?_, hsame⟩
  have hempty : { Store.empty with defaultPermission := p } = { defaultPermission := p } := rfl
  -- the snapshot is put in part by part, and no part touches what another put in
  simp only [toStore, Store.ofHistory, history, Store.applyAll_append]
  rw [hp, hempty, hps, Store.applyAll_orgWideDefaults _ (by simpa using hdefaults),
    Store.applyAll_rules, Store.applyAll_shares, Store.applyAll_users _ (by simpa using husers)]
  simpa using hms

/-! ### Loading tables -/

theorem nodup_map_filterMap {ρ α κ κ' : Type} {f : ρ → Option α} {column : ρ → κ'} {key : α → κ}
    {s : κ → κ'} (h : ∀ r a, f r = some a → column r = s (key a)) {rows : List ρ}
    (hrows : (rows.map column).Nodup) : ((rows.filterMap f).map key).Nodup := by
  -- rows without a model are left out, so the stored keys are some of the columns
  have hsublist : (((rows.filterMap f).map key).map s).Sublist (rows.map column) := by
    clear hrows
    induction rows with
    | nil => exact .slnil
    | cons r rows ih =>
      cases hr : f r with
      | none =>
        rw [List.filterMap_cons_none hr]
        exact ih.cons _
      | some a =>
        rw [List.filterMap_cons_some hr, List.map_cons, List.map_cons, List.map_cons, h r a hr]
        exact ih.cons_cons _
  exact (hrows.sublist hsublist).of_map _

theorem find?_reverse_of_nodup {α κ : Type} {key : α → κ} {k : κ} {p : α → Bool} {l : List α}
    (hl : (l.map key).Nodup) (hp : ∀ a, p a = true ↔ key a = k) :
    l.reverse.find? p = l.find? p := by
  have hreverse : (l.reverse.map key).Nodup := by
    rw [List.map_reverse]
    exact List.nodup_reverse.2 hl
  refine Option.ext fun a => ?_
  rw [find?_key_eq_some hreverse hp, find?_key_eq_some hl hp, List.mem_reverse]

namespace Database

/-- The snapshot of the models of all rows, with the object permissions of another. -/
def snapshot (d : Database) (held : Snapshot) : Snapshot where
  defaultPermission := held.defaultPermission
  permissions := held.permissions
  orgWideDefaults := d.contents.orgWideDefaults
  rules := d.contents.rules
  shares := d.contents.shares
  users := d.contents.users
  memberships := d.contents.memberships

variable {d : Database}

theorem nodup_contents_users (h : (d.users.map (·.id)).Nodup) :
    (d.contents.users.map (·.id)).Nodup :=
  nodup_map_filterMap (s := fun id : UserId => some id.text)
    (fun _ _ hu => (UserRow.columns_of_model? hu).1) h

theorem nodup_contents_orgWideDefaults
    (h : (d.orgWideDefaults.map fun r => (r.tenant, r.collection)).Nodup) :
    (d.contents.orgWideDefaults.map fun x => (x.tenant, x.collection)).Nodup := by
  refine nodup_map_filterMap
    (s := fun k : TenantId × CollectionId => (some k.1.text, some k.2.text))
    (fun r x hx => ?_) h
  obtain ⟨ht, hc, -⟩ := DefaultRow.columns_of_model? hx
  rw [ht, hc]

variable (husers : (d.users.map (·.id)).Nodup)
  (hdefaults : (d.orgWideDefaults.map fun r => (r.tenant, r.collection)).Nodup)

include husers hdefaults

/-- **Loading tables keeps what they say about sharing**, for every tenant and collection. -/
theorem sameSharing_toStore (held : Snapshot) (tenant : TenantId) (collection : CollectionId) :
    Store.SameSharing tenant collection d.contents (d.snapshot held).toStore ∧
      (∀ id, d.contents.answer (.user id) = (d.snapshot held).toStore.answer (.user id)) ∧
      (d.snapshot held).toStore.failing = [] := by
  have hus := nodup_contents_users husers
  have hds := nodup_contents_orgWideDefaults hdefaults
  obtain ⟨p, ps, ms, hstore, hms⟩ := (d.snapshot held).toStore_eq hds hus
  rw [hstore]
  -- only what is looked up by key comes in another order
  refine ⟨⟨fun u => List.mem_reverse.symm, fun m => (hms m).symm, ?_, rfl, fun _ => rfl⟩,
    fun id => ?_, rfl⟩
  · exact (find?_reverse_of_nodup (k := (tenant, collection)) hds fun x => by simp).symm
  · exact (find?_reverse_of_nodup (k := id) hus fun u => by simp).symm

end Database

/-! ### The same answers -/

/-- Engines that are answered alike for all tenants and collections answer every request alike. -/
theorem Engine.Alike.outcome_answer {e' e : Engine}
    (h : ∀ tenant collection, Alike tenant collection e' e) (request : Request) :
    (e'.answer request).outcome = (e.answer request).outcome := by
  cases request with
  | evaluate user record access =>
    exact outcome_evaluateFor (h record.tenant record.collection) (.user user) access
  | evaluateAs subject record access =>
    exact outcome_evaluateFor (h record.tenant record.collection) (.subject subject) access
  | filter user tenant collection access =>
    exact (h tenant collection).outcome_filterFor (.user user) access
  | filterAs subject tenant collection access =>
    exact (h tenant collection).outcome_filterFor (.subject subject) access
  | resolveSubject user => exact ((h default default).resolveSubject user).outcome_eq
  | effectiveGroups user => exact ((h default default).effectiveGroups user).outcome_eq
  | effectiveUsers group => exact ((h default default).effectiveUsers group).outcome_eq

namespace Database

/-- **Tables answer as the store they are loaded into.**  Over complete tables with distinct users
and at most one default for a collection of a tenant, every request succeeds and gives the value
that it gives over the store with the models of all rows and the same object permissions. -/
theorem answers_as_loaded (d : Database) (hd : d.isComplete = true)
    (husers : (d.users.map (·.id)).Nodup)
    (hdefaults : (d.orgWideDefaults.map fun r => (r.tenant, r.collection)).Nodup)
    (held : Snapshot) (permissions : Providers)
    (hpermissions : ∀ user collection,
      (permissions.ask (.objectPermission user collection)).outcome =
        .ok ((d.snapshot held).toStore.answer (.objectPermission user collection)))
    (settings : EngineSettings) (request : Request) :
    ∃ v, ((d.engine .healthy permissions settings).answer request).outcome = .ok v ∧
      (((d.snapshot held).toStore.engine settings).answer request).outcome = .ok v := by
  obtain ⟨-, huser, hfailing⟩ := sameSharing_toStore husers hdefaults held default default
  have hask : ∀ c : Query, c.provider ∉ (d.snapshot held).toStore.failing := by simp [hfailing]
  obtain ⟨v, hv⟩ := Store.exists_ok_answer hfailing settings request
  -- what answers alike about every tenant and collection is enough for any request
  have halike : ∀ tenant collection, Engine.Alike tenant collection
      (d.engine .healthy permissions settings) ((d.snapshot held).toStore.engine settings) := by
    refine fun tenant collection => ⟨rfl, fun user => ?_, fun p => ?_⟩
    · exact (hpermissions user collection).trans (Store.engine_ask (hask _)).symm
    · exact .always fun c _ hc => ⟨_, _, engine_ask hd rfl permissions settings hc.provider_ne,
        Store.engine_ask (hask c),
        (sameSharing_toStore husers hdefaults held tenant collection).1.agree huser hc⟩
  exact ⟨v, (Engine.Alike.outcome_answer halike request).trans hv, hv⟩

/-- A rule that opens a collection to a group. -/
def openingRule (id : String) (time : Timestamp) : RuleRow where
  id := some id
  tenant := some "acme"
  collection := some "cases"
  ruleType := some "CRITERIA_BASED"
  sharedToType := some "GROUP"
  sharedToId := some "g"
  accessLevel := some "READ"
  active := some true
  createdAt := some time

/-- Tables with the later of two rules first, and with a member of no known type. -/
def deskTables : Database where
  orgWideDefaults := [⟨some "acme", some "cases", some "PRIVATE"⟩]
  rules := [openingRule "late" ⟨2024, 1, 1, 0, 0, 0, 0, by decide⟩,
    openingRule "early" ⟨2023, 1, 1, 0, 0, 0, 0, by decide⟩]
  users := [⟨some "ann", none, none, none⟩]
  memberships := [⟨some "g", some "ROBOT", some "ann"⟩, ⟨some "g", some "USER", some "ann"⟩]

/-- The rule that was created first is the reason, although its row comes last. -/
theorem early_rule_is_reason :
    deskTables.isComplete = true ∧ (deskTables.users.map (·.id)).Nodup ∧
    (deskTables.orgWideDefaults.map fun r => (r.tenant, r.collection)).Nodup ∧
    ((deskTables.engine .healthy (deskTables.snapshot {}).toStore.providers ⟨10, .direct⟩).answer
      (.evaluate ⟨"ann"⟩ ⟨⟨"acme"⟩, ⟨"cases"⟩, ⟨"r"⟩, some ⟨"bob"⟩⟩ .read)).outcome =
        .ok (.granted (.sharingRule "early")) := by
  have husers : (deskTables.users.map (·.id)).Nodup := by decide
  have hdefaults : (deskTables.orgWideDefaults.map fun r => (r.tenant, r.collection)).Nodup := by
    decide
  obtain ⟨-, -, hfailing⟩ := sameSharing_toStore husers hdefaults {} default default
  obtain ⟨v, hv, hloaded⟩ := deskTables.answers_as_loaded (by decide) husers hdefaults {}
    (deskTables.snapshot {}).toStore.providers
    (fun user collection => Store.ask_eq_ok.2 ⟨by simp [hfailing], rfl⟩) ⟨10, .direct⟩
    (.evaluate ⟨"ann"⟩ ⟨⟨"acme"⟩, ⟨"cases"⟩, ⟨"r"⟩, some ⟨"bob"⟩⟩ .read)
  have hgranted : (((deskTables.snapshot {}).toStore.engine ⟨10, .direct⟩).answer
      (.evaluate ⟨"ann"⟩ ⟨⟨"acme"⟩, ⟨"cases"⟩, ⟨"r"⟩, some ⟨"bob"⟩⟩ .read)).outcome =
        .ok (.granted (.sharingRule "early")) := by
    have hrules : deskTables.contents.rules =
        deskTables.rules.reverse.filterMap RuleRow.model? :=
      congrArg (List.filterMap RuleRow.model?)
        (mergeSort_pair createdNoLater_trans createdNoLater_total rfl)
    rw [snapshot, hrules]
    rfl
  exact ⟨by decide, husers, hdefaults, by rw [hv, ← hloaded, hgranted]⟩

end Database

end RecordAccess
