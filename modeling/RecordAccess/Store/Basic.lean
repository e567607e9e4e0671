import RecordAccess.Providers

/-!
# The in-memory store

A `Store` holds all that the data providers are asked about.  It changes by `Mutation`s only:
permissions, defaults and users are replaced by key, rules and shares are appended, and memberships
form a set.  A provider of a store can be made to fail.

`Store.answer` is what the store knows, `Store.providers` are its data providers.
-/

namespace RecordAccess

/-- What the data providers are asked about. -/
structure Store where
  /-- What users may do who have no permission of their own. -/
  defaultPermission : ObjectPermission := .crud
  permissions : List ((UserId × CollectionId) × ObjectPermission) := []
  orgWideDefaults : List OrgWideDefault := []
  rules : List SharingRule := []
  shares : List RecordShare := []
  users : List User := []
  memberships : List Membership := []
  /-- The providers that fail. -/
  failing : List Provider := []

/-- A change of a store. -/
inductive Mutation
  | permission (user : UserId) (collection : CollectionId) (p : ObjectPermission)
  | defaultPermission (p : ObjectPermission)
  | orgWideDefault (d : OrgWideDefault)
  | rule (r : SharingRule)
  | recordShare (s : RecordShare)
  | user (u : User)
  | membership (m : Membership)
  | failProvider (p : Provider)
  | restoreProvider (p : Provider)

namespace Store

/-- The store that holds nothing. -/
def empty : Store := {}

instance : Inhabited Store := ⟨empty⟩

/-! ### Changes -/

/-- The store after one change. -/
def apply (s : Store) : Mutation → Store
  | .permission user collection p =>
    { s with
      permissions :=
        ((user, collection), p) :: s.permissions.filter fun e => e.1 ≠ (user, collection) }
  | .defaultPermission p => { s with defaultPermission := p }
  | .orgWideDefault d =>
    { s with
      orgWideDefaults := d :: s.orgWideDefaults.filter fun e =>
        (e.tenant, e.collection) ≠ (d.tenant, d.collection) }
  | .rule r => { s with rules := s.rules ++ [r] }
  | .recordShare share => { s with shares := s.shares ++ [share] }
  | .user u => { s with users := u :: s.users.filter fun e => e.id ≠ u.id }
  | .membership m =>
    { s with memberships := if m ∈ s.memberships then s.memberships else s.memberships ++ [m] }
  | .failProvider p => { s with failing := p :: s.failing.filter fun q => q ≠ p }
  | .restoreProvider p => { s with failing := s.failing.filter fun q => q ≠ p }

/-- The store after changes in order. -/
def applyAll (s : Store) (history : List Mutation) : Store := history.foldl apply s

/-- The store that a history of changes leads to. -/
def ofHistory (history : List Mutation) : Store := empty.applyAll history

/-! ### Answers -/

/-- The direct members of a group that have a type. -/
def membersOf (s : Store) (group : GroupId) (type : MemberType) : List String :=
  (s.memberships.filter fun m => m.group = group && m.memberType = type).map (·.member)

/-- What the store knows. -/
def answer (s : Store) : (c : Query) → c.Answer
  | .objectPermission user collection =>
    (s.permissions.lookup (user, collection)).getD s.defaultPermission
  | .orgWideDefault tenant collection =>
    s.orgWideDefaults.find? fun d => d.tenant = tenant && d.collection = collection
  | .activeRules tenant collection =>
    s.rules.filter fun r => r.tenant = tenant && r.collection = collection && r.active
  | .directShares collection record user =>
    s.shares.filter fun share =>
      share.collection = collection && share.record = record && share.sharedWith = .user user
  | .groupShares collection record groups =>
    s.shares.filter fun share =>
      share.collection = collection && share.record = record &&
        match share.sharedWith with
        | .user _ => false
        | .group g => groups.contains g
  | .collectionShares tenant collection =>
    s.shares.filter fun share => share.collection = collection && share.tenant = tenant
  | .user id => s.users.find? fun u => u.id = id
  | .subordinates manager => s.users.filter fun u => u.manager = some manager
  | .roleHolders tenant role => (s.users.filter fun u => u.hasRoleIn role tenant).map (·.id)
  | .directGroups user =>
    (s.memberships.filter fun m => m.holds .user user.text).map (·.group)
  | .parentGroups group =>
    (s.memberships.filter fun m => m.holds .group group.text).map fun m =>
      .nested m.group group
  | .directUsers group => (s.membersOf group .user).map Id.mk
  | .childGroups group => (s.membersOf group .group).map Id.mk

/-- Answers a question, unless its provider fails. -/
def ask (s : Store) (c : Query) : Run c.Answer :=
  if s.failing.contains c.provider then
    Run.raise (.providerUnavailable c.provider.name "injected failure")
  else pure (s.answer c)

/-! ### Providers -/

theorem answer_of_ask {s : Store} {c : Query} {a : c.Answer}
    (h : (s.ask c).outcome = .ok a) : s.answer c = a := by
  unfold ask at h
  split at h
  · cases h
  · exact Except.ok.inj h

theorem calls_ask (s : Store) (c : Query) : (s.ask c).calls = [] := by
  unfold ask
  split <;> rfl

/-- The data providers of a store. -/
def providers (s : Store) : Providers where
  ask := s.ask
  nestedGroups := s.memberships.map fun m => ⟨m.member⟩
  managedUsers := s.users.map (·.id)
  managers := s.users.filterMap (·.manager)
  calls_ask := s.calls_ask
  nested_of_child g gs h c hc := by
    have := answer_of_ask h
    subst this
    simp only [answer, membersOf, List.mem_map, List.mem_filter] at hc
    obtain ⟨_, ⟨m, ⟨hm, _⟩, rfl⟩, rfl⟩ := hc
    exact List.mem_map.2 ⟨m, hm, rfl⟩
  managed_of_subordinate m us h u hu := by
    have := answer_of_ask h
    subst this
    simp only [answer, List.mem_filter] at hu
    exact List.mem_map.2 ⟨u, hu.1, rfl⟩
  manager_of_user id u m h hm := by
    have := answer_of_ask h
    simp only [answer] at this
    exact List.mem_filterMap.2 ⟨u, List.mem_of_find?_eq_some this, hm⟩

end Store

end RecordAccess
