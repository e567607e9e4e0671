import RecordAccess.Access
import RecordAccess.Json.Basic
import RecordAccess.Principal
import RecordAccess.Timestamp

/-!
# Sharing rules and record shares

A `SharingRule` opens the records of a collection to a principal: those whose owner belongs to
another principal, or those that meet criteria.  Criteria are a document of the metadata service and
are not interpreted here.  A `RecordShare` opens one record to a user or a group.
-/

namespace RecordAccess

/-! ### Sharing rules -/

/-- Which records a sharing rule opens. -/
inductive RuleKind
  /-- Records whose owner belongs to a principal. -/
  | ownerBased (sharedFrom : Principal)
  /-- Records that meet criteria. -/
  | criteriaBased (criteria : Json)

/-- The kind as it is stored. -/
def RuleKind.name : RuleKind → String
  | .ownerBased _ => "OWNER_BASED"
  | .criteriaBased _ => "CRITERIA_BASED"

/-- A rule that extends the visibility of a collection. -/
structure SharingRule where
  id : String
  tenant : TenantId
  collection : CollectionId
  name : String
  kind : RuleKind
  sharedTo : Principal
  level : AccessLevel
  active : Bool
  createdAt : Timestamp

/-- What a model gets that is made without an id or a time of creation. -/
structure Stamp where
  id : String
  time : Timestamp

namespace SharingRule

/-- A new rule: active and without a name. -/
def make (stamp : Stamp) (tenant : TenantId) (collection : CollectionId) (kind : RuleKind)
    (sharedTo : Principal) (level : AccessLevel) : SharingRule :=
  ⟨stamp.id, tenant, collection, "", kind, sharedTo, level, true, stamp.time⟩

/-- The rule with another id. -/
def withId (r : SharingRule) (id : String) : SharingRule := { r with id }

/-- The rule switched off. -/
def inactive (r : SharingRule) : SharingRule := { r with active := false }

end SharingRule

/-! ### Record shares -/

/-- A grant of access to one record. -/
structure RecordShare where
  id : String
  tenant : TenantId
  collection : CollectionId
  record : RecordId
  sharedWith : ShareSubject
  level : AccessLevel
  reason : Option String
  createdAt : Timestamp

namespace RecordShare

/-- A new share, without a reason. -/
def make (stamp : Stamp) (tenant : TenantId) (collection : CollectionId) (record : RecordId)
    (sharedWith : ShareSubject) (level : AccessLevel) : RecordShare :=
  ⟨stamp.id, tenant, collection, record, sharedWith, level, none, stamp.time⟩

/-- The share with another id. -/
def withId (s : RecordShare) (id : String) : RecordShare := { s with id }

end RecordShare

end RecordAccess
