import RecordAccess.Access

/-!
# Decisions

A decision grants an access and names the source that granted it, or denies it and says why.
-/

namespace RecordAccess

/-- What granted an access. -/
inductive GrantSource
  | viewAll
  | modifyAll
  | orgWideDefault (access : DefaultAccess)
  | ownership
  | managerChain
  /-- The first rule that applies. -/
  | sharingRule (id : String)
  /-- The first share with the user. -/
  | recordShare (id : String)
  /-- The first share with one of the user's groups. -/
  | groupShare (id : String)
deriving DecidableEq

namespace GrantSource

/-- The name of a source. -/
def label : GrantSource → String
  | .viewAll => "view_all"
  | .modifyAll => "modify_all"
  | .orgWideDefault _ => "org_wide_default"
  | .ownership => "ownership"
  | .managerChain => "manager_chain"
  | .sharingRule _ => "sharing_rule"
  | .recordShare _ => "record_share"
  | .groupShare _ => "group_share"

/-- What a source adds to its name. -/
def detail? : GrantSource → Option String
  | .orgWideDefault access => some access.name
  | .sharingRule id => some id
  | .recordShare id => some id
  | .groupShare id => some id
  | _ => none

end GrantSource

/-- Why an access was denied. -/
inductive DenyReason
  /-- The user lacks the permission on the collection. -/
  | missingObjectPermission
  /-- No source grants the access. -/
  | noGrant
deriving DecidableEq

/-- The name of a reason. -/
def DenyReason.label : DenyReason → String
  | .missingObjectPermission => "missing_object_permission"
  | .noGrant => "no_grant"

/-- The outcome of an access check. -/
inductive Decision
  | granted (source : GrantSource)
  | denied (reason : DenyReason)
deriving DecidableEq

namespace Decision

/-- Whether the access is granted. -/
def isGranted : Decision → Bool
  | .granted _ => true
  | .denied _ => false

/-- Whether the access is denied. -/
def isDenied : Decision → Bool
  | .granted _ => false
  | .denied _ => true

/-- The name of the source or of the reason. -/
def label : Decision → String
  | .granted source => source.label
  | .denied reason => reason.label

/-- The text shown to people. -/
def display : Decision → String
  | .granted source =>
    match source.detail? with
    | none => "granted (" ++ source.label ++ ")"
    | some detail => "granted (" ++ source.label ++ " " ++ detail ++ ")"
  | .denied reason => "denied (" ++ reason.label ++ ")"

end Decision

end RecordAccess
