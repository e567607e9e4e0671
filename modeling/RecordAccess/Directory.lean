import RecordAccess.Id

/-!
# Users, groups and managers

`User` is what sharing needs to know of a platform user, `Membership` is one edge of the group
graph, and `ManagerScope` says how far a manager's access reaches.
-/

namespace RecordAccess

/-! ### Users -/

/-- What sharing needs to know of a platform user. -/
structure User where
  id : UserId
  /-- A user without a tenant belongs to every tenant. -/
  tenant : Option TenantId := none
  manager : Option UserId := none
  role : Option RoleId := none
deriving DecidableEq, Inhabited

namespace User

/-- Whether the user belongs to a tenant. -/
def belongsTo (u : User) (tenant : TenantId) : Bool :=
  match u.tenant with
  | none => true
  | some own => own = tenant

/-- Whether the user holds a role inside a tenant. -/
def hasRoleIn (u : User) (role : RoleId) (tenant : TenantId) : Bool :=
  u.role = some role && u.belongsTo tenant

end User

/-! ### Group memberships -/

/-- What a member of a group is. -/
inductive MemberType
  | user
  | group
deriving DecidableEq, Inhabited

/-- The name used in documents and in stored columns. -/
def MemberType.name : MemberType → String
  | .user => "USER"
  | .group => "GROUP"

/-- One edge of the group graph: a user or a group that is a direct member of a group. -/
structure Membership where
  group : GroupId
  memberType : MemberType
  /-- The id of the member, a user id or a group id according to `memberType`. -/
  member : String
deriving DecidableEq, Inhabited

namespace Membership

/-- A user directly inside a group. -/
def ofUser (group : GroupId) (user : UserId) : Membership := ⟨group, .user, user.text⟩

/-- A group nested inside another. -/
def nested (parent child : GroupId) : Membership := ⟨parent, .group, child.text⟩

/-- Whether the member is the one with a type and an id. -/
def holds (m : Membership) (type : MemberType) (id : String) : Bool :=
  m.memberType = type && m.member = id

end Membership

/-! ### Managers -/

/-- How far record access reaches up the manager chain. -/
inductive ManagerScope
  /-- Only the direct manager of the owner. -/
  | direct
  /-- Every manager above the owner. -/
  | transitive
deriving DecidableEq, Inhabited

/-- The name used in settings. -/
def ManagerScope.name : ManagerScope → String
  | .direct => "direct"
  | .transitive => "transitive"

end RecordAccess
