import RecordAccess.Codec.Models
import RecordAccess.Store.Basic

/-!
# Snapshots

A `Snapshot` is the contents of a store as one document.  Every part may be missing.  Loading one
is the same as making its changes (`Snapshot.history`) to an empty store.
-/

namespace RecordAccess

/-- The object permission of one user on one collection. -/
structure PermissionEntry where
  user : UserId
  collection : CollectionId
  permission : ObjectPermission
deriving DecidableEq, Inhabited

/-- The contents of a store. -/
structure Snapshot where
  defaultPermission : Option ObjectPermission := none
  permissions : List PermissionEntry := []
  orgWideDefaults : List OrgWideDefault := []
  rules : List SharingRule := []
  shares : List RecordShare := []
  users : List User := []
  memberships : List Membership := []

namespace Snapshot

/-- The changes that load a snapshot. -/
def history (s : Snapshot) : List Mutation :=
  s.defaultPermission.toList.map .defaultPermission ++
    s.permissions.map (fun p => .permission p.user p.collection p.permission) ++
    s.orgWideDefaults.map .orgWideDefault ++ s.rules.map .rule ++ s.shares.map .recordShare ++
    s.users.map .user ++ s.memberships.map .membership

/-- The store that holds a snapshot. -/
def toStore (s : Snapshot) : Store := .ofHistory s.history

end Snapshot

/-! ### Documents -/

variable {ν : Type} [Document ν]

namespace PermissionEntry

/-- Reads an entry; the flags stand among its own members. -/
def read? [Document Json] (d : ν) : Option PermissionEntry := do
  let (f, others) ← Document.split? ["userId", "collectionId"] d
  pure ⟨← f.required "userId" Id.read?, ← f.required "collectionId" Id.read?,
    ← ObjectPermission.read? (Json.object others)⟩

/-- Writes an entry. -/
def toJson (p : PermissionEntry) : Json :=
  .object (("userId", p.user.toJson) :: ("collectionId", p.collection.toJson) ::
    p.permission.toMembers)

end PermissionEntry

/-- Stamps for the rules and the shares of a list, by their places. -/
structure Stamps where
  rule : Nat → Stamp
  share : Nat → Stamp

namespace Snapshot

/-- The members of a snapshot, in order. -/
def memberNames : List String :=
  ["defaultPermission", "permissions", "orgWideDefaults", "sharingRules", "recordShares", "users",
    "memberships"]

/-- Reads a snapshot. -/
def read? [Document Json] [Timestamp.TextForm] (stamps : Stamps) (d : ν) : Option Snapshot := do
  let f ← Document.fields? memberNames d
  pure
    { defaultPermission := ← f.optional "defaultPermission" ObjectPermission.read?
      permissions := ← f.withDefault "permissions" [] (Document.listOf PermissionEntry.read?)
      orgWideDefaults := ← f.withDefault "orgWideDefaults" [] (Document.listOf OrgWideDefault.read?)
      rules := ← f.withDefault "sharingRules" []
        (Document.listOfIndexed fun i => SharingRule.read? (stamps.rule i))
      shares := ← f.withDefault "recordShares" []
        (Document.listOfIndexed fun i => RecordShare.read? (stamps.share i))
      users := ← f.withDefault "users" [] (Document.listOf User.read?)
      memberships := ← f.withDefault "memberships" [] (Document.listOf Membership.read?) }

/-- Writes a snapshot. -/
def toJson [Timestamp.TextForm] (s : Snapshot) : Json :=
  .object [("defaultPermission", (s.defaultPermission.map ObjectPermission.toJson).getD .null),
    ("permissions", .array (s.permissions.map PermissionEntry.toJson)),
    ("orgWideDefaults", .array (s.orgWideDefaults.map OrgWideDefault.toJson)),
    ("sharingRules", .array (s.rules.map SharingRule.toJson)),
    ("recordShares", .array (s.shares.map RecordShare.toJson)),
    ("users", .array (s.users.map User.toJson)),
    ("memberships", .array (s.memberships.map Membership.toJson))]

end Snapshot

end RecordAccess
