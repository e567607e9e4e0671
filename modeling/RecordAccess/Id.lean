/-!
# Identifiers

Every id is an opaque text tagged with the kind of thing it names.  The kind is part of the type,
so a user and a group that share a text are never confused.
-/

namespace RecordAccess

/-- The kinds of things that carry an id. -/
inductive IdKind
  | user
  | group
  | role
  | tenant
  | collection
  | record
deriving DecidableEq

/-- An id of one kind. -/
structure Id (kind : IdKind) where
  /-- The text of the id, compared exactly. -/
  text : String
deriving DecidableEq, Inhabited

/-- Names a platform user. -/
abbrev UserId := Id .user

/-- Names a group; queues are groups. -/
abbrev GroupId := Id .group

/-- Names a role. -/
abbrev RoleId := Id .role

/-- Names a tenant. -/
abbrev TenantId := Id .tenant

/-- Names a collection of records. -/
abbrev CollectionId := Id .collection

/-- Names a record inside its collection. -/
abbrev RecordId := Id .record

end RecordAccess
