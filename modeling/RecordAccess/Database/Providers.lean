import RecordAccess.Database.Row
import RecordAccess.Providers

/-!
# Data providers over tables

A `Database` holds the five tables.  Each question but that for object permissions is one query over
them: conditions compare exact texts, null equals nothing, and rules come in the order of their
creation.  `Database.providers` takes object permissions from elsewhere.
-/

namespace RecordAccess

/-- The tables. -/
structure Database where
  orgWideDefaults : List DefaultRow := []
  rules : List RuleRow := []
  shares : List ShareRow := []
  users : List UserRow := []
  memberships : List MembershipRow := []

/-- What the server and the connections to it do with a query. -/
inductive Health
  /-- Queries are answered. -/
  | healthy
  /-- The server refuses every statement. -/
  | refusing
  /-- The server hangs up. -/
  | hangingUp
  /-- The connections are closed for good. -/
  | closed
deriving DecidableEq, Inhabited

/-- Why a query fails. -/
def Health.cause? : Health → Option DatabaseCause
  | .healthy => none
  | .refusing => some (.refused "query failed")
  | .hangingUp => some (.io "connection closed")
  | .closed => some .poolClosed

namespace Database

/-! ### Reading rows -/

/-- Reads every row, or fails with the first that cannot be read. -/
def readAll {ρ α : Type} (read : ρ → Except DatabaseCause α) (rows : List ρ) : Run (List α) :=
  match rows.mapM read with
  | .ok as => pure as
  | .error cause => Run.raise cause.toError

/-- Reads the first row, if there is one. -/
def readFirst {ρ α : Type} (read : ρ → Except DatabaseCause α) : List ρ → Run (Option α)
  | [] => pure none
  | row :: _ =>
    match read row with
    | .ok a => pure (some a)
    | .error cause => Run.raise cause.toError

/-- Keeps what could be interpreted and logs a notice for all else. -/
def keepAll {α : Type} : List (Except Notice α) → Run (List α)
  | [] => pure []
  | .ok a :: rest => do
    let as ← keepAll rest
    pure (a :: as)
  | .error notice :: rest => do
    Run.log notice
    keepAll rest

/-- Reads rules. -/
def readRules (rows : List RuleRow) : Run (List SharingRule) := do
  let stored ← readAll RuleRow.read rows
  keepAll (stored.map StoredRule.interpret)

/-- Reads shares. -/
def readShares (rows : List ShareRow) : Run (List RecordShare) := do
  let stored ← readAll ShareRow.read rows
  keepAll (stored.map StoredShare.interpret)

/-- Whether one row was created no later than another; rows without a time come last. -/
def createdNoLater (r s : RuleRow) : Bool :=
  match r.createdAt, s.createdAt with
  | some a, some b => a.le b
  | some _, none => true
  | none, some _ => false
  | none, none => true

/-- Reads ids out of one column. -/
def readIds {ρ : Type} {kind : IdKind} (name : String) (column : ρ → Option String)
    (rows : List ρ) : Run (List (Id kind)) := do
  let texts ← readAll (fun row => requiredColumn name (column row)) rows
  pure (texts.map Id.mk)

/-! ### Queries -/

/-- The memberships whose member is of a type and has an id. -/
def holdingMember (d : Database) (type id : String) : List MembershipRow :=
  d.memberships.filter fun m => m.memberType = some type && m.member = some id

/-- The memberships of a group whose member is of a type. -/
def membersOf (d : Database) (group type : String) : List MembershipRow :=
  d.memberships.filter fun m => m.group = some group && m.memberType = some type

/-- Answers a question by a query; object permissions come from `permissions`. -/
def query (d : Database) (permissions : Providers) : (c : Query) → Run c.Answer
  | .objectPermission user collection => permissions.ask (.objectPermission user collection)
  | .orgWideDefault tenant collection =>
    readFirst DefaultRow.read (d.orgWideDefaults.filter fun r =>
      r.tenant = some tenant.text && r.collection = some collection.text)
  | .activeRules tenant collection =>
    readRules ((d.rules.filter fun r =>
      r.tenant = some tenant.text && r.collection = some collection.text &&
        r.active = some true).mergeSort createdNoLater)
  | .directShares collection record user =>
    readShares (d.shares.filter fun r =>
      r.collection = some collection.text && r.record = some record.text &&
        r.sharedWithType = some "USER" && r.sharedWithId = some user.text)
  | .groupShares collection record groups =>
    readShares (d.shares.filter fun r =>
      r.collection = some collection.text && r.record = some record.text &&
        r.sharedWithType = some "GROUP" && groups.any fun g => r.sharedWithId = some g.text)
  | .collectionShares tenant collection =>
    readShares (d.shares.filter fun r =>
      r.tenant = some tenant.text && r.collection = some collection.text)
  | .user id => readFirst UserRow.read (d.users.filter fun u => u.id = some id.text)
  | .subordinates manager =>
    readAll UserRow.read (d.users.filter fun u => u.manager = some manager.text)
  | .roleHolders tenant role =>
    readIds "id" UserRow.id (d.users.filter fun u =>
      u.role = some role.text && (u.tenant = some tenant.text || u.tenant.isNone))
  | .directGroups user =>
    readIds "group_id" MembershipRow.group (d.holdingMember "USER" user.text)
  | .parentGroups group => do
    let parents ← readIds "group_id" MembershipRow.group (d.holdingMember "GROUP" group.text)
    pure (parents.map fun parent => .nested parent group)
  | .directUsers group => readIds "member_id" MembershipRow.member (d.membersOf group.text "USER")
  | .childGroups group => readIds "member_id" MembershipRow.member (d.membersOf group.text "GROUP")

/-- Whether a question reaches the server: that for shares with no groups has its answer already. -/
def needsServer : Query → Bool
  | .objectPermission .. => false
  | .groupShares _ _ groups => !groups.isEmpty
  | _ => true

/-- Answers a question, unless it reaches a server that is at fault. -/
def ask (d : Database) (health : Health) (permissions : Providers) (c : Query) : Run c.Answer :=
  match health.cause? with
  | none => d.query permissions c
  | some cause =>
    if needsServer c then Run.raise cause.toError else d.query permissions c

/-! ### Calls -/

@[simp] theorem calls_readAll {ρ α : Type} (read : ρ → Except DatabaseCause α) (rows : List ρ) :
    (readAll read rows).calls = [] := by
  unfold readAll
  split <;> rfl

@[simp] theorem calls_readFirst {ρ α : Type} (read : ρ → Except DatabaseCause α) (rows : List ρ) :
    (readFirst read rows).calls = [] := by
  unfold readFirst
  split
  · rfl
  · split <;> rfl

@[simp] theorem calls_keepAll {α : Type} (rows : List (Except Notice α)) :
    (keepAll rows).calls = [] := by
  induction rows with
  | nil => rfl
  | cons row rows ih =>
    cases row with
    | ok a => exact Run.calls_bind_eq_nil ih fun _ => rfl
    | error notice => exact Run.calls_bind_eq_nil rfl fun _ => ih

@[simp] theorem calls_readIds {ρ : Type} {kind : IdKind} (name : String)
    (column : ρ → Option String) (rows : List ρ) :
    (readIds name column rows : Run (List (Id kind))).calls = [] :=
  Run.calls_bind_eq_nil (calls_readAll _ _) fun _ => rfl

theorem calls_query (d : Database) (permissions : Providers) (c : Query) :
    (d.query permissions c).calls = [] := by
  cases c with
  | objectPermission user collection => exact permissions.calls_ask _
  | parentGroups group => exact Run.calls_bind_eq_nil (calls_readIds _ _ _) fun _ => rfl
  | activeRules | directShares | groupShares | collectionShares =>
    exact Run.calls_bind_eq_nil (calls_readAll _ _) fun _ => calls_keepAll _
  | _ => simp [query]

theorem calls_ask (d : Database) (health : Health) (permissions : Providers) (c : Query) :
    (d.ask health permissions c).calls = [] := by
  unfold ask
  split
  · exact d.calls_query permissions c
  · split
    · rfl
    · exact d.calls_query permissions c

/-! ### Providers -/

theorem mem_of_mapM_ok {ρ α : Type} {read : ρ → Except DatabaseCause α} {rows : List ρ}
    {as : List α} (h : rows.mapM read = .ok as) {a : α} (ha : a ∈ as) :
    ∃ r ∈ rows, read r = .ok a := by
  induction rows generalizing as with
  | nil =>
    cases h
    cases ha
  | cons r rows ih =>
    rw [List.mapM_cons] at h
    cases hr : read r with
    | error e => rw [hr] at h; cases h
    | ok b =>
      rw [hr] at h
      cases hm : rows.mapM read with
      | error e => rw [hm] at h; cases h
      | ok bs =>
        rw [hm] at h
        cases h
        rcases List.mem_cons.1 ha with rfl | ha
        · exact ⟨r, List.mem_cons_self, hr⟩
        · obtain ⟨s, hs, hsa⟩ := ih hm ha
          exact ⟨s, List.mem_cons_of_mem _ hs, hsa⟩

theorem mem_of_readAll {ρ α : Type} {read : ρ → Except DatabaseCause α} {rows : List ρ}
    {as : List α} (h : (readAll read rows).outcome = .ok as) {a : α} (ha : a ∈ as) :
    ∃ r ∈ rows, read r = .ok a := by
  unfold readAll at h
  split at h
  · rename_i bs hbs
    cases h
    exact mem_of_mapM_ok hbs ha
  · cases h

theorem eq_some_of_requiredColumn {α : Type} {name : String} {v : Option α} {a : α}
    (h : requiredColumn name v = .ok a) : v = some a := by
  cases v with
  | none => cases h
  | some b => cases h; rfl

theorem mem_of_readIds {ρ : Type} {kind : IdKind} {name : String} {column : ρ → Option String}
    {rows : List ρ} {ids : List (Id kind)} (h : (readIds name column rows).outcome = .ok ids)
    {i : Id kind} (hi : i ∈ ids) : ∃ r ∈ rows, column r = some i.text := by
  obtain ⟨texts, htexts, hids⟩ := Run.exists_ok_of_bind h
  cases hids
  obtain ⟨t, ht, rfl⟩ := List.mem_map.1 hi
  obtain ⟨r, hr, hrt⟩ := mem_of_readAll htexts ht
  exact ⟨r, hr, eq_some_of_requiredColumn hrt⟩

theorem query_of_ask {d : Database} {health : Health} {permissions : Providers} {c : Query}
    {a : c.Answer} (h : (d.ask health permissions c).outcome = .ok a) :
    (d.query permissions c).outcome = .ok a := by
  unfold ask at h
  split at h
  · exact h
  · split at h
    · cases h
    · exact h

/-- The data providers over the tables. -/
def providers (d : Database) (health : Health) (permissions : Providers) : Providers where
  ask := d.ask health permissions
  nestedGroups := d.memberships.filterMap fun m => m.member.map Id.mk
  managedUsers := d.users.filterMap fun u => u.id.map Id.mk
  managers := d.users.filterMap fun u => u.manager.map Id.mk
  calls_ask := d.calls_ask health permissions
  nested_of_child g gs h c hc := by
    obtain ⟨r, hr, hrc⟩ := mem_of_readIds (query_of_ask h) hc
    refine List.mem_filterMap.2 ⟨r, (List.mem_filter.1 hr).1, ?_⟩
    rw [hrc]
    rfl
  managed_of_subordinate m us h u hu := by
    obtain ⟨r, hr, hru⟩ := mem_of_readAll (query_of_ask h) hu
    refine List.mem_filterMap.2 ⟨r, (List.mem_filter.1 hr).1, ?_⟩
    rw [(UserRow.read_eq hru).1]
    rfl
  manager_of_user id u m h hm := by
    have hq := query_of_ask h
    simp only [query] at hq
    unfold readFirst at hq
    split at hq
    · cases hq
    · rename_i row rest hrows
      split at hq
      · rename_i v hv
        cases hq
        have hmem : row ∈ d.users := by
          have : row ∈ d.users.filter fun u => u.id = some id.text := by
            rw [hrows]; exact List.mem_cons_self
          exact (List.mem_filter.1 this).1
        refine List.mem_filterMap.2 ⟨row, hmem, ?_⟩
        rw [(UserRow.read_eq hv).2, hm]
      · cases hq

end Database

end RecordAccess
