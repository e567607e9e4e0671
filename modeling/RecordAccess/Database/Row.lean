import RecordAccess.Error.Cause
import RecordAccess.Event

/-!
# Stored rows

Administrative services store sharing data in five tables.  A row is read in two steps.  First its
columns are read: a required one that is null fails the whole query (`RuleRow.read`,
`ShareRow.read`, …).  Then choices, which are stored as free text, are interpreted: a rule or a
share that makes no sense grants nothing and is left out, with a notice that says why
(`StoredRule.interpret`, `StoredShare.interpret`).

`SharingRule.toStored` and `RecordShare.toStored` write models back as columns.
-/

namespace RecordAccess

/-! ### Columns -/

/-- The value of a column that must not be null. -/
def requiredColumn {α : Type} (name : String) : Option α → Except DatabaseCause α
  | some a => .ok a
  | none => .error (.columnDecode name "unexpected null; try decoding as an `Option`")

/-! ### Org-wide defaults -/

/-- A row of the table of defaults. -/
structure DefaultRow where
  tenant : Option String := none
  collection : Option String := none
  internalAccess : Option String := none
deriving DecidableEq, Inhabited

/-- Reads a default; a text that names no default is the most restrictive one. -/
def DefaultRow.read (r : DefaultRow) : Except DatabaseCause OrgWideDefault := do
  let tenant ← requiredColumn "tenant_id" r.tenant
  let collection ← requiredColumn "collection_id" r.collection
  let access ← requiredColumn "internal_access" r.internalAccess
  pure ⟨⟨tenant⟩, ⟨collection⟩, .ofColumn access⟩

/-! ### Users -/

/-- A row of the table of users. -/
structure UserRow where
  id : Option String := none
  tenant : Option String := none
  manager : Option String := none
  role : Option String := none
deriving DecidableEq, Inhabited

/-- Reads a user. -/
def UserRow.read (r : UserRow) : Except DatabaseCause User := do
  let id ← requiredColumn "id" r.id
  pure ⟨⟨id⟩, r.tenant.map Id.mk, r.manager.map Id.mk, r.role.map Id.mk⟩

theorem UserRow.read_eq {r : UserRow} {u : User} (h : r.read = .ok u) :
    r.id = some u.id.text ∧ r.manager.map Id.mk = u.manager := by
  unfold UserRow.read at h
  cases hr : r.id with
  | none => rw [hr] at h; cases h
  | some t => rw [hr] at h; cases h; exact ⟨rfl, rfl⟩

/-! ### Group memberships -/

/-- A row of the table of memberships. -/
structure MembershipRow where
  group : Option String := none
  memberType : Option String := none
  member : Option String := none
deriving DecidableEq, Inhabited

/-! ### Sharing rules -/

/-- A row of the table of rules.  Its criteria are the value that the column decodes to. -/
structure RuleRow where
  id : Option String := none
  tenant : Option String := none
  collection : Option String := none
  name : Option String := none
  ruleType : Option String := none
  sharedFromType : Option String := none
  sharedFromId : Option String := none
  criteria : Option Json := none
  sharedToType : Option String := none
  sharedToId : Option String := none
  accessLevel : Option String := none
  active : Option Bool := none
  createdAt : Option Timestamp := none

/-- A rule whose required columns are there. -/
structure StoredRule where
  id : String
  tenant : String
  collection : String
  name : Option String
  ruleType : String
  sharedFromType : Option String
  sharedFromId : Option String
  criteria : Option Json
  sharedToType : String
  sharedToId : String
  accessLevel : String
  active : Bool
  createdAt : Timestamp

/-- Reads the columns of a rule. -/
def RuleRow.read (r : RuleRow) : Except DatabaseCause StoredRule := do
  let id ← requiredColumn "id" r.id
  let tenant ← requiredColumn "tenant_id" r.tenant
  let collection ← requiredColumn "collection_id" r.collection
  let ruleType ← requiredColumn "rule_type" r.ruleType
  let sharedToType ← requiredColumn "shared_to_type" r.sharedToType
  let sharedToId ← requiredColumn "shared_to_id" r.sharedToId
  let accessLevel ← requiredColumn "access_level" r.accessLevel
  let active ← requiredColumn "active" r.active
  let createdAt ← requiredColumn "created_at" r.createdAt
  pure ⟨id, tenant, collection, r.name, ruleType, r.sharedFromType, r.sharedFromId, r.criteria,
    sharedToType, sharedToId, accessLevel, active, createdAt⟩

namespace StoredRule

/-- The source that an owner-based rule shares from. -/
def source? (r : StoredRule) : Option Principal :=
  match r.sharedFromType, r.sharedFromId with
  | some kind, some id => Principal.ofParts? kind id
  | _, _ => none

/-- The kind of a rule, or why it has none. -/
def interpretKind (r : StoredRule) : Except Notice RuleKind :=
  if r.ruleType = "OWNER_BASED" then
    match r.source? with
    | some p => .ok (.ownerBased p)
    | none => .error (.ruleWithoutSource r.id)
  else if r.ruleType = "CRITERIA_BASED" then .ok (.criteriaBased (r.criteria.getD .null))
  else .error (.ruleOfUnknownType r.id r.ruleType)

/-- The rule, or why it is left out. -/
def interpret (r : StoredRule) : Except Notice SharingRule :=
  match r.interpretKind with
  | .error notice => .error notice
  | .ok kind =>
    match Principal.ofParts? r.sharedToType r.sharedToId, AccessLevel.ofColumn? r.accessLevel with
    | some sharedTo, some level =>
      .ok ⟨r.id, ⟨r.tenant⟩, ⟨r.collection⟩, r.name.getD "", kind, sharedTo, level, r.active,
        r.createdAt⟩
    | _, _ => .error (.ruleWithoutTarget r.id)

end StoredRule

/-- The columns of a rule. -/
def SharingRule.toStored (r : SharingRule) : StoredRule :=
  let source := match r.kind with
    | .ownerBased p => some p
    | .criteriaBased _ => none
  { id := r.id
    tenant := r.tenant.text
    collection := r.collection.text
    name := some r.name
    ruleType := r.kind.name
    sharedFromType := source.map (·.kind)
    sharedFromId := source.map (·.idText)
    criteria := match r.kind with
      | .ownerBased _ => none
      | .criteriaBased c => some c
    sharedToType := r.sharedTo.kind
    sharedToId := r.sharedTo.idText
    accessLevel := r.level.name
    active := r.active
    createdAt := r.createdAt }

/-! ### Record shares -/

/-- A row of the table of shares. -/
structure ShareRow where
  id : Option String := none
  tenant : Option String := none
  collection : Option String := none
  record : Option String := none
  sharedWithType : Option String := none
  sharedWithId : Option String := none
  accessLevel : Option String := none
  reason : Option String := none
  createdAt : Option Timestamp := none
deriving DecidableEq, Inhabited

/-- A share whose required columns are there. -/
structure StoredShare where
  id : String
  tenant : String
  collection : String
  record : String
  sharedWithType : String
  sharedWithId : String
  accessLevel : String
  reason : Option String
  createdAt : Timestamp
deriving DecidableEq

/-- Reads the columns of a share. -/
def ShareRow.read (r : ShareRow) : Except DatabaseCause StoredShare := do
  let id ← requiredColumn "id" r.id
  let tenant ← requiredColumn "tenant_id" r.tenant
  let collection ← requiredColumn "collection_id" r.collection
  let record ← requiredColumn "record_id" r.record
  let sharedWithType ← requiredColumn "shared_with_type" r.sharedWithType
  let sharedWithId ← requiredColumn "shared_with_id" r.sharedWithId
  let accessLevel ← requiredColumn "access_level" r.accessLevel
  let createdAt ← requiredColumn "created_at" r.createdAt
  pure ⟨id, tenant, collection, record, sharedWithType, sharedWithId, accessLevel, r.reason,
    createdAt⟩

/-- The share, or why it is left out. -/
def StoredShare.interpret (s : StoredShare) : Except Notice RecordShare :=
  match ShareSubject.ofParts? s.sharedWithType s.sharedWithId with
  | none => .error (.shareOfUnknownSubject s.id s.sharedWithType)
  | some sharedWith =>
    match AccessLevel.ofColumn? s.accessLevel with
    | none => .error (.shareWithoutLevel s.id)
    | some level =>
      .ok ⟨s.id, ⟨s.tenant⟩, ⟨s.collection⟩, ⟨s.record⟩, sharedWith, level, s.reason,
        s.createdAt⟩

/-- The columns of a share. -/
def RecordShare.toStored (s : RecordShare) : StoredShare :=
  ⟨s.id, s.tenant.text, s.collection.text, s.record.text, s.sharedWith.kind, s.sharedWith.idText,
    s.level.name, s.reason, s.createdAt⟩

end RecordAccess
