import RecordAccess.Engine.Basic
import RecordAccess.Walk

/-!
# Effective groups and users

Group nesting may have cycles.  Upward, from a user to groups, a walk follows parents for at most
`maxGroupDepth` rounds and reports when it had to leave groups unexpanded.  Downward, from a group
to users, a walk follows children to the end.
-/

namespace RecordAccess.Engine

/-- The groups that a group is a direct member of, as a step of a walk. -/
def parentStep (e : Engine) (g : GroupId) : Run (List Unit × List GroupId) := do
  let edges ← e.ask (.parentGroups g)
  pure ([], edges.map (·.group))

/-- Every group a user is in, directly or through groups, sorted. -/
def effectiveGroups (e : Engine) (user : UserId) : Run (List GroupId) := do
  Run.count (.groupResolution "up")
  let direct ← e.ask (.directGroups user)
  let w ← Walk.rounds e.parentStep e.settings.maxGroupDepth (.start direct)
  if w.frontier.isEmpty then pure (sortedGroups w.seen)
  else do
    Run.log (.depthReached user e.settings.maxGroupDepth w.frontier.length)
    Run.count .depthTruncation
    pure (sortedGroups w.seen)

/-- The members of a group, as a step of a walk. -/
def memberStep (e : Engine) (g : GroupId) : Run (List UserId × List GroupId) := do
  let users ← e.ask (.directUsers g)
  let children ← e.ask (.childGroups g)
  pure (users, children)

/-- Every user in a group, directly or through groups, sorted. -/
def effectiveUsers (e : Engine) (group : GroupId) : Run (List UserId) := do
  Run.count (.groupResolution "down")
  -- every group but the first is nested, so the walk ends before the rounds do
  let w ← Walk.rounds e.memberStep (e.providers.nestedGroups.length + 1) (.start [group])
  pure (sortedUsers w.found)

end RecordAccess.Engine
