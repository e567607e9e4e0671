import RecordAccess.Document.Json
import RecordAccess.Filter.Sql
import RecordAccess.Subject

/-!
# Models in documents

Each model is read by a function `read?` from any document and written by `toJson`, with its members
in a fixed order.  Names are in camel case, choices in capitals.  A model that may be made without
an id or a time takes them from a `Stamp`.
-/

namespace RecordAccess

variable {ν : Type} [Document ν]

/-- Reads a choice among values that have names. -/
def chosen? {α : Type} (all : List α) (name : α → String) (d : ν) : Option α :=
  (Document.choice? (all.map name) d).bind fun t => all.find? fun a => name a = t

/-- Reads an id. -/
def Id.read? {kind : IdKind} (d : ν) : Option (Id kind) := (Document.text? d).map Id.mk

/-- Writes an id. -/
def Id.toJson {kind : IdKind} (i : Id kind) : Json := .string i.text

/-- A member that is written only if there is a value. -/
def memberIfSome {α : Type} (name : String) (write : α → Json) : Option α → List (String × Json)
  | none => []
  | some a => [(name, write a)]

/-! ### Access -/

/-- Reads an access type. -/
def AccessType.read? (d : ν) : Option AccessType := chosen? AccessType.all AccessType.name d

/-- Writes an access type. -/
def AccessType.toJson (a : AccessType) : Json := .string a.name

/-- Reads a default. -/
def DefaultAccess.read? (d : ν) : Option DefaultAccess :=
  chosen? [.privateAccess, .publicRead, .publicReadWrite] DefaultAccess.name d

/-- Writes a default. -/
def DefaultAccess.toJson (a : DefaultAccess) : Json := .string a.name

/-- Reads an access level. -/
def AccessLevel.read? (d : ν) : Option AccessLevel := chosen? [.read, .readWrite] AccessLevel.name d

/-- Writes an access level. -/
def AccessLevel.toJson (l : AccessLevel) : Json := .string l.name

namespace ObjectPermission

/-- The names of the flags. -/
def flagNames : List String :=
  ["canCreate", "canRead", "canEdit", "canDelete", "canViewAll", "canModifyAll"]

/-- Reads the flags; a missing one is off. -/
def ofFields? (f : Fields ν) : Option ObjectPermission := do
  let flag (name : String) := f.withDefault name false Document.bool?
  pure ⟨← flag "canCreate", ← flag "canRead", ← flag "canEdit", ← flag "canDelete",
    ← flag "canViewAll", ← flag "canModifyAll"⟩

/-- Reads an object permission. -/
def read? (d : ν) : Option ObjectPermission := (Document.fields? flagNames d).bind ofFields?

/-- The members of an object permission. -/
def toMembers (p : ObjectPermission) : List (String × Json) :=
  [("canCreate", .bool p.canCreate), ("canRead", .bool p.canRead), ("canEdit", .bool p.canEdit),
    ("canDelete", .bool p.canDelete), ("canViewAll", .bool p.canViewAll),
    ("canModifyAll", .bool p.canModifyAll)]

/-- Writes an object permission. -/
def toJson (p : ObjectPermission) : Json := .object p.toMembers

end ObjectPermission

/-- Reads an org-wide default. -/
def OrgWideDefault.read? (d : ν) : Option OrgWideDefault := do
  let f ← Document.fields? ["tenantId", "collectionId", "internalAccess"] d
  pure ⟨← f.required "tenantId" Id.read?, ← f.required "collectionId" Id.read?,
    ← f.required "internalAccess" DefaultAccess.read?⟩

/-- Writes an org-wide default. -/
def OrgWideDefault.toJson (o : OrgWideDefault) : Json :=
  .object [("tenantId", o.tenant.toJson), ("collectionId", o.collection.toJson),
    ("internalAccess", o.access.toJson)]

/-! ### Principals -/

/-- A kind and an id. -/
def partsJson (kind id : String) : Json := .object [("type", .string kind), ("id", .string id)]

/-- Reads a principal. -/
def Principal.read? (d : ν) : Option Principal := do
  let (kind, id) ← Document.kindAndText? "type" "id" ["USER", "GROUP", "QUEUE", "ROLE"] d
  Principal.ofParts? kind id

/-- Writes a principal. -/
def Principal.toJson (p : Principal) : Json := partsJson p.kind p.idText

/-- Reads a share subject. -/
def ShareSubject.read? (d : ν) : Option ShareSubject := do
  let (kind, id) ← Document.kindAndText? "type" "id" ["USER", "GROUP"] d
  ShareSubject.ofParts? kind id

/-- Writes a share subject. -/
def ShareSubject.toJson (s : ShareSubject) : Json := partsJson s.kind s.idText

/-! ### Directory -/

/-- Reads a user. -/
def User.read? (d : ν) : Option User := do
  let f ← Document.fields? ["id", "tenantId", "managerId", "roleId"] d
  pure ⟨← f.required "id" Id.read?, ← f.optional "tenantId" Id.read?,
    ← f.optional "managerId" Id.read?, ← f.optional "roleId" Id.read?⟩

/-- Writes a user. -/
def User.toJson (u : User) : Json :=
  .object (("id", u.id.toJson) :: memberIfSome "tenantId" Id.toJson u.tenant ++
    memberIfSome "managerId" Id.toJson u.manager ++ memberIfSome "roleId" Id.toJson u.role)

/-- Reads a member type. -/
def MemberType.read? (d : ν) : Option MemberType := chosen? [.user, .group] MemberType.name d

/-- Writes a member type. -/
def MemberType.toJson (m : MemberType) : Json := .string m.name

/-- Reads a membership. -/
def Membership.read? (d : ν) : Option Membership := do
  let f ← Document.fields? ["groupId", "memberType", "memberId"] d
  pure ⟨← f.required "groupId" Id.read?, ← f.required "memberType" MemberType.read?,
    ← f.required "memberId" Document.text?⟩

/-- Writes a membership. -/
def Membership.toJson (m : Membership) : Json :=
  .object [("groupId", m.group.toJson), ("memberType", m.memberType.toJson),
    ("memberId", .string m.member)]

/-- Reads a manager scope. -/
def ManagerScope.read? (d : ν) : Option ManagerScope :=
  chosen? [.direct, .transitive] ManagerScope.name d

/-- Writes a manager scope. -/
def ManagerScope.toJson (s : ManagerScope) : Json := .string s.name

/-- Reads a subject; its groups form a set. -/
def AccessSubject.read? (d : ν) : Option AccessSubject := do
  let f ← Document.fields? ["userId", "roleId", "tenantId", "groupIds"] d
  pure ⟨← f.required "userId" Id.read?, ← f.optional "roleId" Id.read?,
    ← f.optional "tenantId" Id.read?,
    sortedGroups (← f.withDefault "groupIds" [] (Document.listOf Id.read?))⟩

/-- Writes a subject. -/
def AccessSubject.toJson (s : AccessSubject) : Json :=
  .object (("userId", s.user.toJson) :: memberIfSome "roleId" Id.toJson s.role ++
    memberIfSome "tenantId" Id.toJson s.tenant ++ [("groupIds", .array (s.groups.map Id.toJson))])

/-! ### Rules and shares -/

/-- Reads a timestamp. -/
def Timestamp.ofDocument? [TextForm] (d : ν) : Option Timestamp :=
  (Document.text? d).bind TextForm.read?

/-- Writes a timestamp. -/
def Timestamp.toJson [TextForm] (t : Timestamp) : Json := .string (TextForm.display t)

namespace RuleKind

/-- The name of the member that holds the kind. -/
def tag : String := "ruleType"

/-- The kinds in order. -/
def names : List String := ["OWNER_BASED", "CRITERIA_BASED"]

/-- The names of what belongs to a kind. -/
def bodyNames (kind : String) : List String :=
  if kind = "OWNER_BASED" then ["sharedFrom"] else ["criteria"]

/-- Reads what belongs to a kind. -/
def ofBody? [Document Json] (kind : String) (f : Fields Json) : Option RuleKind :=
  if kind = "OWNER_BASED" then (f.required "sharedFrom" Principal.read?).map .ownerBased
  else if kind = "CRITERIA_BASED" then
    (f.withDefault "criteria" .null Document.untyped?).map .criteriaBased
  else none

/-- Reads a kind; inside a rule it may also be given by its place. -/
def readIn? [Document Json] (byPlace : Bool) (d : Json) : Option RuleKind := do
  let (kind, body) ← Document.kindAndBody? byPlace tag names d
  ofBody? kind (← Document.fields? (bodyNames kind) body)

/-- Reads a kind by itself. -/
def read? [Document Json] (d : Json) : Option RuleKind := readIn? false d

/-- The members of a kind. -/
def toMembers : RuleKind → List (String × Json)
  | .ownerBased p => [(tag, .string "OWNER_BASED"), ("sharedFrom", p.toJson)]
  | .criteriaBased c => [(tag, .string "CRITERIA_BASED"), ("criteria", c)]

/-- Writes a kind. -/
def toJson (k : RuleKind) : Json := .object k.toMembers

end RuleKind

namespace SharingRule

/-- The members of a rule, those of its kind apart. -/
def memberNames : List String :=
  ["id", "tenantId", "collectionId", "name", "sharedTo", "accessLevel", "active", "createdAt"]

/-- Reads a rule; the members of its kind stand among its own. -/
def read? [Document Json] [Timestamp.TextForm] (stamp : Stamp) (d : ν) : Option SharingRule := do
  let (f, others) ← Document.split? memberNames d
  pure
    { id := ← f.withDefault "id" stamp.id Document.text?
      tenant := ← f.required "tenantId" Id.read?
      collection := ← f.required "collectionId" Id.read?
      name := ← f.withDefault "name" "" Document.text?
      kind := ← RuleKind.readIn? true (.object others)
      sharedTo := ← f.required "sharedTo" Principal.read?
      level := ← f.required "accessLevel" AccessLevel.read?
      active := ← f.withDefault "active" true Document.bool?
      createdAt := ← f.withDefault "createdAt" stamp.time Timestamp.ofDocument? }

/-- Writes a rule. -/
def toJson [Timestamp.TextForm] (r : SharingRule) : Json :=
  .object ([("id", .string r.id), ("tenantId", r.tenant.toJson),
    ("collectionId", r.collection.toJson), ("name", .string r.name)] ++ r.kind.toMembers ++
    [("sharedTo", r.sharedTo.toJson), ("accessLevel", r.level.toJson), ("active", .bool r.active),
    ("createdAt", r.createdAt.toJson)])

end SharingRule

namespace RecordShare

/-- The members of a share, in order. -/
def memberNames : List String :=
  ["id", "tenantId", "collectionId", "recordId", "sharedWith", "accessLevel", "reason", "createdAt"]

/-- Reads a share. -/
def read? [Timestamp.TextForm] (stamp : Stamp) (d : ν) : Option RecordShare := do
  let f ← Document.fields? memberNames d
  pure
    { id := ← f.withDefault "id" stamp.id Document.text?
      tenant := ← f.required "tenantId" Id.read?
      collection := ← f.required "collectionId" Id.read?
      record := ← f.required "recordId" Id.read?
      sharedWith := ← f.required "sharedWith" ShareSubject.read?
      level := ← f.required "accessLevel" AccessLevel.read?
      reason := ← f.optional "reason" Document.text?
      createdAt := ← f.withDefault "createdAt" stamp.time Timestamp.ofDocument? }

/-- Writes a share. -/
def toJson [Timestamp.TextForm] (s : RecordShare) : Json :=
  .object ([("id", .string s.id), ("tenantId", s.tenant.toJson),
    ("collectionId", s.collection.toJson), ("recordId", s.record.toJson),
    ("sharedWith", s.sharedWith.toJson), ("accessLevel", s.level.toJson)] ++
    memberIfSome "reason" .string s.reason ++ [("createdAt", s.createdAt.toJson)])

end RecordShare

/-! ### Filters -/

/-- Reads a filter column. -/
def FilterColumn.read? (d : ν) : Option FilterColumn := chosen? [.id, .owner] FilterColumn.name d

/-- Reads a filter operator. -/
def FilterOperator.read? (d : ν) : Option FilterOperator :=
  chosen? [.eq, .isIn] FilterOperator.name d

/-- Reads a clause. -/
def FilterClause.read? (d : ν) : Option FilterClause := do
  let f ← Document.fields? ["column", "operator", "values"] d
  pure ⟨← f.required "column" FilterColumn.read?, ← f.required "operator" FilterOperator.read?,
    ← f.required "values" (Document.listOf Document.text?)⟩

/-- Writes a clause. -/
def FilterClause.toJson (c : FilterClause) : Json :=
  .object [("column", .string c.column.name), ("operator", .string c.operator.name),
    ("values", .strings c.values)]

/-- Reads a predicate. -/
def SharingPredicate.read? (d : ν) : Option SharingPredicate := do
  let f ← Document.fields? ["clauses"] d
  pure ⟨← f.required "clauses" (Document.listOf FilterClause.read?)⟩

/-- Writes a predicate. -/
def SharingPredicate.toJson (p : SharingPredicate) : Json :=
  .object [("clauses", .array (p.clauses.map FilterClause.toJson))]

/-- Reads the physical names of the columns. -/
def FilterColumns.read? (d : ν) : Option FilterColumns := do
  let f ← Document.fields? ["id", "owner"] d
  pure ⟨← f.required "id" Document.text?, ← f.required "owner" Document.text?⟩

/-- Writes the physical names of the columns. -/
def FilterColumns.toJson (c : FilterColumns) : Json :=
  .object [("id", .string c.id), ("owner", .string c.owner)]

/-- Reads an SQL fragment. -/
def SqlFragment.read? (d : ν) : Option SqlFragment := do
  let f ← Document.fields? ["sql", "params"] d
  pure ⟨← f.required "sql" Document.text?,
    ← f.required "params" (Document.listOf Document.text?)⟩

/-- Writes an SQL fragment. -/
def SqlFragment.toJson (s : SqlFragment) : Json :=
  .object [("sql", .string s.sql), ("params", .strings s.params)]

end RecordAccess
