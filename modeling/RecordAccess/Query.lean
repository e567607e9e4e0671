import RecordAccess.Directory
import RecordAccess.Rule

/-!
# Questions to the data providers

All data come from four read-only providers.  A `Query` is one question; `Query.Answer` is the type
of what it is answered with.  Something that is not found is an empty answer, never an error.
-/

namespace RecordAccess

/-- The data providers. -/
inductive Provider
  | objectPermissions
  | sharing
  | users
  | groups
deriving DecidableEq, Inhabited

/-- The name used in errors. -/
def Provider.name : Provider → String
  | .objectPermissions => "object_permissions"
  | .sharing => "sharing"
  | .users => "users"
  | .groups => "group_membership"

/-- A question to a data provider. -/
inductive Query
  /-- What a user may do with the records of a collection. -/
  | objectPermission (user : UserId) (collection : CollectionId)
  /-- The default of a collection in a tenant. -/
  | orgWideDefault (tenant : TenantId) (collection : CollectionId)
  /-- The active rules of a collection in a tenant, in order. -/
  | activeRules (tenant : TenantId) (collection : CollectionId)
  /-- The shares of a record with a user. -/
  | directShares (collection : CollectionId) (record : RecordId) (user : UserId)
  /-- The shares of a record with any of some groups. -/
  | groupShares (collection : CollectionId) (record : RecordId) (groups : List GroupId)
  /-- The shares of all records of a collection in a tenant. -/
  | collectionShares (tenant : TenantId) (collection : CollectionId)
  /-- One user. -/
  | user (id : UserId)
  /-- The users with a manager. -/
  | subordinates (manager : UserId)
  /-- The users who hold a role inside a tenant. -/
  | roleHolders (tenant : TenantId) (role : RoleId)
  /-- The groups that a user is a direct member of. -/
  | directGroups (user : UserId)
  /-- The groups that a group is a direct member of. -/
  | parentGroups (group : GroupId)
  /-- The users that are direct members of a group. -/
  | directUsers (group : GroupId)
  /-- The groups that are direct members of a group. -/
  | childGroups (group : GroupId)
deriving DecidableEq

namespace Query

/-- The provider a question goes to. -/
def provider : Query → Provider
  | .objectPermission .. => .objectPermissions
  | .orgWideDefault .. => .sharing
  | .activeRules .. => .sharing
  | .directShares .. => .sharing
  | .groupShares .. => .sharing
  | .collectionShares .. => .sharing
  | .user .. => .users
  | .subordinates .. => .users
  | .roleHolders .. => .users
  | .directGroups .. => .groups
  | .parentGroups .. => .groups
  | .directUsers .. => .groups
  | .childGroups .. => .groups

/-- What a question is answered with. -/
@[reducible]
def Answer : Query → Type
  | .objectPermission .. => ObjectPermission
  | .orgWideDefault .. => Option OrgWideDefault
  | .activeRules .. => List SharingRule
  | .directShares .. => List RecordShare
  | .groupShares .. => List RecordShare
  | .collectionShares .. => List RecordShare
  | .user .. => Option User
  | .subordinates .. => List User
  | .roleHolders .. => List UserId
  | .directGroups .. => List GroupId
  | .parentGroups .. => List Membership
  | .directUsers .. => List UserId
  | .childGroups .. => List GroupId

end Query

end RecordAccess
