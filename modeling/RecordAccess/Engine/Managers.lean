import RecordAccess.Engine.Basic
import RecordAccess.Walk

/-!
# Managers and subordinates

The manager relation may have cycles.  `isManagerOf` follows it upward from an owner, `subordinates`
downward from a manager; both heed the scope of the settings.
-/

namespace RecordAccess.Engine

/-- Whether a user is met among the managers above `current`; `visited` holds the users the chain
has come through. -/
def managesFrom (e : Engine) (user : UserId) :
    Nat → (current : UserId) → (visited : List UserId) → Run Bool
  | 0, _, _ => pure false
  | n + 1, current, visited => do
    let found ← e.ask (.user current)
    match found.bind (·.manager) with
    | none => pure false
    | some manager =>
      if manager = user then pure true
      else if e.settings.managerScope = .direct ∨ manager ∈ visited then pure false
      else e.managesFrom user n manager (manager :: visited)

/-- Whether a user manages an owner. -/
def isManagerOf (e : Engine) (user owner : UserId) : Run Bool :=
  -- the chain takes a new manager in each step, so it ends before the steps do
  e.managesFrom user (e.providers.managers.length + 1) owner [owner]

/-- The users who report to a user, as a step of a walk. -/
def reportStep (e : Engine) (manager : UserId) : Run (List UserId × List UserId) := do
  let users ← e.ask (.subordinates manager)
  let ids := users.map (·.id)
  pure (ids, if e.settings.managerScope = .transitive then ids else [])

/-- The users whose records a user sees as their manager, sorted. -/
def subordinates (e : Engine) (user : UserId) : Run (List UserId) := do
  -- every user but the first has a manager, so the walk ends before the rounds do
  let w ← Walk.rounds e.reportStep (e.providers.managedUsers.length + 1) (.start [user])
  pure (sortedUsers w.found)

end RecordAccess.Engine
