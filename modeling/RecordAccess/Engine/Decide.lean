import RecordAccess.Decision
import RecordAccess.Engine.Caller
import RecordAccess.Engine.Managers

/-!
# Access decisions

`Engine.evaluate` asks the sources of access in a fixed order and stops at the first that grants:

1. the object permission, the only one that can deny;
2. the bypass of sharing;
3. the org-wide default;
4. ownership;
5. the managers above the owner;
6. sharing rules;
7. shares of the record, with the user and then with the user's groups.

Any failure of a provider is an error, and an error grants nothing (`Engine.canAccessOrDeny`).
-/

namespace RecordAccess

/-- A record that somebody asks about. -/
structure Record where
  tenant : TenantId
  collection : CollectionId
  id : RecordId
  owner : Option UserId
deriving DecidableEq

/-- Whether a share counts for an access inside a tenant. -/
def RecordShare.gives (s : RecordShare) (tenant : TenantId) (access : AccessType) : Bool :=
  s.tenant = tenant && s.level.satisfies access

/-- The bypass that an access uses. -/
def GrantSource.bypass : AccessType → GrantSource
  | .read => .viewAll
  | .edit => .modifyAll
  | .delete => .modifyAll

namespace Engine

/-! ### Sharing rules -/

/-- Whether an owner belongs to the principal that a rule shares from. -/
def ownerIn (e : Engine) (owner : UserId) (tenant : TenantId) : Principal → Run Bool
  | .user id => pure (id = owner)
  | .group id => do
    let users ← e.effectiveUsers id
    pure (users.contains owner)
  | .queue id => do
    let users ← e.effectiveUsers id
    pure (users.contains owner)
  | .role id => do
    let found ← e.ask (.user owner)
    pure (found.any fun u => u.hasRoleIn id tenant)

/-- Whether the records that a rule opens include a record. -/
def covers (e : Engine) (record : Record) : RecordScope → Run Bool
  | .allRecords => pure true
  | .ownedBy principal =>
    match record.owner with
    | none => pure false
    | some owner => e.ownerIn owner record.tenant principal

/-- The first of the applicable rules that includes a record. -/
def firstCovering (e : Engine) (record : Record) :
    List (SharingRule × RecordScope) → Run (Option SharingRule)
  | [] => pure none
  | (rule, scope) :: rest => do
    if ← e.covers record scope then pure (some rule) else e.firstCovering record rest

/-- The rule that grants an access; also gives the caller back, resolved if there were rules. -/
def grantingRule (e : Engine) (caller : Caller) (record : Record) (access : AccessType) :
    Run (Caller × Option SharingRule) := do
  let rules ← e.ask (.activeRules record.tenant record.collection)
  if rules.isEmpty then pure (caller, none)
  else do
    let s ← e.subjectOf caller
    let rule ← e.firstCovering record (applicable rules s access)
    pure (.subject s, rule)

/-! ### Record shares -/

/-- The share that grants an access. -/
def grantingShare (e : Engine) (caller : Caller) (record : Record) (access : AccessType) :
    Run (Option GrantSource) := do
  let direct ← e.ask (.directShares record.collection record.id caller.userId)
  match direct.find? fun s => s.gives record.tenant access with
  | some share => pure (some (.recordShare share.id))
  | none => do
    let s ← e.subjectOf caller
    if s.groups.isEmpty then pure none
    else do
      let shares ← e.ask (.groupShares record.collection record.id (sortedGroups s.groups))
      match shares.find? fun s => s.gives record.tenant access with
      | some share => pure (some (.groupShare share.id))
      | none => pure none

/-! ### The decision -/

/-- Whether the caller manages the owner of a record. -/
def managesOwner (e : Engine) (caller : Caller) (record : Record) : Run Bool :=
  match record.owner with
  | none => pure false
  | some owner => e.isManagerOf caller.userId owner

/-- The decision by the sources that look at one record. -/
def decideRecord (e : Engine) (caller : Caller) (record : Record) (access : AccessType) :
    Run Decision := do
  if record.owner = some caller.userId then pure (.granted .ownership)
  else if ← e.managesOwner caller record then pure (.granted .managerChain)
  else do
    let (caller, rule) ← e.grantingRule caller record access
    match rule with
    | some rule => pure (.granted (.sharingRule rule.id))
    | none => do
      match ← e.grantingShare caller record access with
      | some source => pure (.granted source)
      | none => pure (.denied .noGrant)

/-- The decision by all sources. -/
def decide (e : Engine) (caller : Caller) (record : Record) (access : AccessType) :
    Run Decision := do
  let permission ← e.ask (.objectPermission caller.userId record.collection)
  if !permission.permits access then pure (.denied .missingObjectPermission)
  else if permission.bypasses access then pure (.granted (.bypass access))
  else do
    let baseline ← e.defaultAccess record.tenant record.collection
    if baseline.grants access then pure (.granted (.orgWideDefault baseline))
    else e.decideRecord caller record access

/-- The decision, counted under its label. -/
def evaluateFor (e : Engine) (caller : Caller) (record : Record) (access : AccessType) :
    Run Decision := do
  let decision ← e.decide caller record access
  Run.count (.accessDecision decision.label access)
  pure decision

/-- Which source decides whether a user may access a record. -/
def evaluate (e : Engine) (user : UserId) (record : Record) (access : AccessType) : Run Decision :=
  e.evaluateFor (.user user) record access

/-- Which source decides whether a resolved subject may access a record. -/
def evaluateAs (e : Engine) (s : AccessSubject) (record : Record) (access : AccessType) :
    Run Decision :=
  e.evaluateFor (.subject s) record access

/-- Whether a user may access a record. -/
def canAccess (e : Engine) (user : UserId) (record : Record) (access : AccessType) : Run Bool := do
  let decision ← e.evaluate user record access
  pure decision.isGranted

/-- Whether a resolved subject may access a record. -/
def canAccessAs (e : Engine) (s : AccessSubject) (record : Record) (access : AccessType) :
    Run Bool := do
  let decision ← e.evaluateAs s record access
  pure decision.isGranted

/-- Whether a user may access a record, where an error is logged, counted and means no. -/
def canAccessOrDeny (e : Engine) (user : UserId) (record : Record) (access : AccessType) :
    Run Bool :=
  let run := e.canAccess user record access
  match run.outcome with
  | .ok _ => run
  | .error error =>
    ⟨.ok false,
      run.events ++ [.logged (.failure error), .counted (.accessDecision "error" access)]⟩

end Engine

end RecordAccess
