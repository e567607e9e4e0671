import RecordAccess.Engine.Groups

/-!
# Callers

A request comes from a user, or from a subject that was resolved before.  Resolving a subject asks
for the user and for the effective groups, so the engine does it only when a source of access needs
it, and once.
-/

namespace RecordAccess

/-- Who asks for access. -/
inductive Caller
  /-- A user, to be resolved when needed. -/
  | user (id : UserId)
  /-- A subject that is resolved already. -/
  | subject (s : AccessSubject)

/-- The user who asks. -/
def Caller.userId : Caller → UserId
  | .user id => id
  | .subject s => s.user

namespace Engine

/-- The user with role, tenant and effective groups; a user that is not in the directory has groups
only. -/
def resolveSubject (e : Engine) (user : UserId) : Run AccessSubject := do
  let found ← e.ask (.user user)
  let groups ← e.effectiveGroups user
  pure ⟨user, found.bind (·.role), found.bind (·.tenant), groups⟩

/-- The subject of a caller. -/
def subjectOf (e : Engine) : Caller → Run AccessSubject
  | .user id => e.resolveSubject id
  | .subject s => pure s

end Engine

end RecordAccess
