import RecordAccess.Engine.Caller
import RecordAccess.Engine.Managers
import RecordAccess.Filter.Predicate

/-!
# Compiled filters

`Engine.filter` compiles the decision for all records of a collection into one predicate: a record
matches exactly if the decision grants the access.  No predicate at all means every record.
-/

namespace RecordAccess.Engine

/-! ### Parts of a filter -/

/-- The users that an owner-based rule shares the records of. -/
def principalUsers (e : Engine) (tenant : TenantId) : Principal → Run (List UserId)
  | .user id => pure [id]
  | .group id => e.effectiveUsers id
  | .queue id => e.effectiveUsers id
  | .role id => e.ask (.roleHolders tenant id)

/-- The owners whose records the applicable rules open, or nothing if a rule opens all records. -/
def ruleOwners (e : Engine) (tenant : TenantId) :
    List (SharingRule × RecordScope) → List UserId → Run (Option (List UserId))
  | [], owners => pure (some owners)
  | (_, .allRecords) :: _, _ => pure none
  | (_, .ownedBy principal) :: rest, owners => do
    let users ← e.principalUsers tenant principal
    e.ruleOwners tenant rest (owners ++ users)

/-- The owners that the rules of a collection open; also gives the caller back, resolved if there
were rules. -/
def sharedOwners (e : Engine) (caller : Caller) (tenant : TenantId) (collection : CollectionId)
    (access : AccessType) : Run (Caller × Option (List UserId)) := do
  let rules ← e.ask (.activeRules tenant collection)
  if rules.isEmpty then pure (caller, some [])
  else do
    let s ← e.subjectOf caller
    let owners ← e.ruleOwners tenant (applicable rules s access) []
    pure (.subject s, owners)

/-- The records that are shared with the caller. -/
def sharedRecords (e : Engine) (caller : Caller) (tenant : TenantId) (collection : CollectionId)
    (access : AccessType) : Run (List RecordId) := do
  let s ← e.subjectOf caller
  let shares ← e.ask (.collectionShares tenant collection)
  let reaching := shares.filter fun share =>
    share.tenant = tenant && share.level.satisfies access && s.isRecipient share.sharedWith
  pure (reaching.map (·.record))

/-- A clause that is left out if it has no values. -/
def unlessEmpty {α : Type} (clause : List α → FilterClause) (values : List α) :
    List FilterClause :=
  if values.isEmpty then [] else [clause values]

/-! ### The filter -/

/-- The filter by the sources that look at single records. -/
def compileRecords (e : Engine) (caller : Caller) (tenant : TenantId) (collection : CollectionId)
    (access : AccessType) : Run (Option SharingPredicate) := do
  let reports ← e.subordinates caller.userId
  let (caller, owners) ← e.sharedOwners caller tenant collection access
  match owners with
  | none => pure none
  | some owners => do
    let records ← e.sharedRecords caller tenant collection access
    pure (some ⟨FilterClause.ownerEq caller.userId :: unlessEmpty FilterClause.ownerIn reports ++
      unlessEmpty FilterClause.ownerIn owners ++ unlessEmpty FilterClause.idIn records⟩)

/-- The filter by all sources. -/
def compile (e : Engine) (caller : Caller) (tenant : TenantId) (collection : CollectionId)
    (access : AccessType) : Run (Option SharingPredicate) := do
  let permission ← e.ask (.objectPermission caller.userId collection)
  if !permission.permits access then pure (some .nothing)
  else if permission.bypasses access then pure none
  else do
    let baseline ← e.defaultAccess tenant collection
    if baseline.grants access then pure none
    else e.compileRecords caller tenant collection access

/-- The kind under which a filter is counted. -/
def filterKind : Option SharingPredicate → String
  | none => "unrestricted"
  | some p => if p.isNothing then "match_nothing" else "restricted"

/-- The filter, counted under its kind. -/
def filterFor (e : Engine) (caller : Caller) (tenant : TenantId) (collection : CollectionId)
    (access : AccessType) : Run (Option SharingPredicate) := do
  let f ← e.compile caller tenant collection access
  Run.count (.filterBuilt (filterKind f))
  pure f

/-- The records of a collection that a user may access. -/
def filter (e : Engine) (user : UserId) (tenant : TenantId) (collection : CollectionId)
    (access : AccessType) : Run (Option SharingPredicate) :=
  e.filterFor (.user user) tenant collection access

/-- The records of a collection that a resolved subject may access. -/
def filterAs (e : Engine) (s : AccessSubject) (tenant : TenantId) (collection : CollectionId)
    (access : AccessType) : Run (Option SharingPredicate) :=
  e.filterFor (.subject s) tenant collection access

/-- The records of a collection that a user may read. -/
def readFilter (e : Engine) (user : UserId) (tenant : TenantId) (collection : CollectionId) :
    Run (Option SharingPredicate) :=
  e.filter user tenant collection .read

end RecordAccess.Engine
