import RecordAccess.Id

/-!
# Access types and what grants them

* `AccessType` is what a caller wants to do with a record;
* `ObjectPermission` holds the flags a user has on a whole collection: `permits` is the gate every
  access has to pass, `bypasses` skips record sharing altogether;
* `DefaultAccess` is the baseline of a collection for everyone in a tenant (`OrgWideDefault`);
* `AccessLevel` is what a sharing rule or a record share gives.
-/

namespace RecordAccess

/-! ### Access types -/

/-- What a caller wants to do with a record. -/
inductive AccessType
  | read
  | edit
  | delete
deriving DecidableEq, Inhabited

namespace AccessType

/-- Every access type, the weakest first. -/
def all : List AccessType := [.read, .edit, .delete]

/-- The name shown to people and in counters. -/
def label : AccessType → String
  | .read => "read"
  | .edit => "edit"
  | .delete => "delete"

/-- The name used in documents. -/
def name : AccessType → String
  | .read => "READ"
  | .edit => "EDIT"
  | .delete => "DELETE"

end AccessType

/-! ### Object permissions -/

/-- What a user may do with the records of one collection, before sharing is considered. -/
structure ObjectPermission where
  canCreate : Bool
  canRead : Bool
  canEdit : Bool
  canDelete : Bool
  /-- Reading skips record sharing. -/
  canViewAll : Bool
  /-- Editing and deleting skip record sharing. -/
  canModifyAll : Bool
deriving DecidableEq, Inhabited

namespace ObjectPermission

/-- No permission at all. -/
def none : ObjectPermission := ⟨false, false, false, false, false, false⟩

/-- Create, read, edit and delete, without a bypass. -/
def crud : ObjectPermission := ⟨true, true, true, true, false, false⟩

/-- Read only, without a bypass. -/
def readOnly : ObjectPermission := { none with canRead := true }

/-- Adds the bypass for reading. -/
def withViewAll (p : ObjectPermission) : ObjectPermission := { p with canViewAll := true }

/-- Adds the bypass for editing and deleting. -/
def withModifyAll (p : ObjectPermission) : ObjectPermission := { p with canModifyAll := true }

/-- The flag an access needs before anything else is asked. -/
def permits (p : ObjectPermission) : AccessType → Bool
  | .read => p.canRead
  | .edit => p.canEdit
  | .delete => p.canDelete

/-- The flag that lets an access skip record sharing. -/
def bypasses (p : ObjectPermission) : AccessType → Bool
  | .read => p.canViewAll
  | .edit => p.canModifyAll
  | .delete => p.canModifyAll

end ObjectPermission

/-! ### Org-wide defaults -/

/-- The visibility of a collection for every user of a tenant. -/
inductive DefaultAccess
  | privateAccess
  | publicRead
  | publicReadWrite
deriving DecidableEq

namespace DefaultAccess

/-- A collection without a recorded default is open to everyone. -/
instance : Inhabited DefaultAccess := ⟨publicReadWrite⟩

/-- Whether the default alone grants an access on every record. -/
def grants : DefaultAccess → AccessType → Bool
  | .publicReadWrite, _ => true
  | .publicRead, access => access = .read
  | .privateAccess, _ => false

/-- The name used in documents and in stored columns. -/
def name : DefaultAccess → String
  | .privateAccess => "PRIVATE"
  | .publicRead => "PUBLIC_READ"
  | .publicReadWrite => "PUBLIC_READ_WRITE"

/-- Reads a stored column; a text that names no default is the most restrictive one. -/
def ofColumn (text : String) : DefaultAccess :=
  if text = "PUBLIC_READ_WRITE" then .publicReadWrite
  else if text = "PUBLIC_READ" then .publicRead
  else .privateAccess

end DefaultAccess

/-- The default recorded for one tenant and collection. -/
structure OrgWideDefault where
  tenant : TenantId
  collection : CollectionId
  access : DefaultAccess
deriving DecidableEq, Inhabited

/-! ### Access levels -/

/-- What a sharing rule or a record share gives. -/
inductive AccessLevel
  | read
  | readWrite
deriving DecidableEq, Inhabited

namespace AccessLevel

/-- `readWrite` satisfies every access, `read` satisfies reading only. -/
def satisfies : AccessLevel → AccessType → Bool
  | .readWrite, _ => true
  | .read, access => access = .read

/-- The name used in documents and in stored columns. -/
def name : AccessLevel → String
  | .read => "READ"
  | .readWrite => "READ_WRITE"

/-- Reads a stored column. -/
def ofColumn? (text : String) : Option AccessLevel :=
  if text = "READ" then some .read
  else if text = "READ_WRITE" then some .readWrite
  else none

@[simp]
theorem ofColumn?_name (l : AccessLevel) : ofColumn? l.name = some l := by
  cases l <;> simp [ofColumn?, name]

end AccessLevel

end RecordAccess
