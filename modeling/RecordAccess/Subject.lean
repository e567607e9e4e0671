import RecordAccess.Directory
import RecordAccess.Rule
import RecordAccess.Text.Sorted

/-!
# Subjects

An `AccessSubject` is a user together with all that can make a rule or a share reach them: a role,
held in the user's own tenant, and the effective groups.

* `Principal.includes` says whether a principal holds a subject;
* `SharingRule.appliesTo` says whether a rule gives a subject an access;
* `SharingRule.scope` is the set of records a rule opens, and `applicable` lists the scopes of the
  rules that apply.
-/

namespace RecordAccess

/-- A user with the role and the groups that count for sharing. -/
structure AccessSubject where
  user : UserId
  role : Option RoleId := none
  /-- The tenant in which the role is held; without one it is held everywhere. -/
  tenant : Option TenantId := none
  /-- The effective groups, sorted and distinct. -/
  groups : List GroupId := []
deriving DecidableEq, Inhabited

/-- The distinct groups of a list, in increasing order. -/
def sortedGroups (groups : List GroupId) : List GroupId :=
  (Text.sortedSet (groups.map (·.text))).map Id.mk

/-- The distinct users of a list, in increasing order. -/
def sortedUsers (users : List UserId) : List UserId :=
  (Text.sortedSet (users.map (·.text))).map Id.mk

@[simp]
theorem mem_sortedGroups {g : GroupId} {gs : List GroupId} : g ∈ sortedGroups gs ↔ g ∈ gs := by
  simp only [sortedGroups, List.mem_map, Text.mem_sortedSet]
  constructor
  · rintro ⟨_, ⟨h, hh, rfl⟩, rfl⟩; exact hh
  · intro h; exact ⟨g.text, ⟨g, h, rfl⟩, rfl⟩

@[simp]
theorem mem_sortedUsers {u : UserId} {us : List UserId} : u ∈ sortedUsers us ↔ u ∈ us := by
  simp only [sortedUsers, List.mem_map, Text.mem_sortedSet]
  constructor
  · rintro ⟨_, ⟨h, hh, rfl⟩, rfl⟩; exact hh
  · intro h; exact ⟨u.text, ⟨u, h, rfl⟩, rfl⟩

namespace AccessSubject

/-- Whether the subject holds a role inside a tenant. -/
def hasRoleIn (s : AccessSubject) (role : RoleId) (tenant : TenantId) : Bool :=
  s.role = some role &&
    match s.tenant with
    | none => true
    | some own => own = tenant

/-- Whether the subject is in a group. -/
def isInGroup (s : AccessSubject) (group : GroupId) : Bool := s.groups.contains group

/-- Whether a record share reaches the subject. -/
def isRecipient (s : AccessSubject) : ShareSubject → Bool
  | .user id => id = s.user
  | .group id => s.isInGroup id

end AccessSubject

/-- Whether the subject belongs to a principal inside a tenant. -/
def Principal.includes (p : Principal) (s : AccessSubject) (tenant : TenantId) : Bool :=
  match p with
  | .user id => id = s.user
  | .role id => s.hasRoleIn id tenant
  | .group id => s.isInGroup id
  | .queue id => s.isInGroup id

/-! ### Rules that reach a subject -/

/-- The records a rule opens. -/
inductive RecordScope
  /-- Every record of the collection. -/
  | allRecords
  /-- The records whose owner belongs to a principal. -/
  | ownedBy (principal : Principal)
deriving DecidableEq

namespace SharingRule

/-- The records the rule opens; criteria are checked elsewhere, so such a rule opens all. -/
def scope (r : SharingRule) : RecordScope :=
  match r.kind with
  | .ownerBased sharedFrom => .ownedBy sharedFrom
  | .criteriaBased _ => .allRecords

/-- Whether the rule gives an access to the subject. -/
def appliesTo (r : SharingRule) (s : AccessSubject) (access : AccessType) : Bool :=
  r.active && r.level.satisfies access && r.sharedTo.includes s r.tenant

end SharingRule

/-- The rules of a list that apply, in order, with the records they open. -/
def applicable (rules : List SharingRule) (s : AccessSubject) (access : AccessType) :
    List (SharingRule × RecordScope) :=
  (rules.filter fun r => r.appliesTo s access).map fun r => (r, r.scope)

end RecordAccess
