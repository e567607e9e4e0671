import RecordAccess.Run

/-!
# Data providers

`Providers` answers every question.  Behind the providers lie finite data: the groups inside groups
and the users that manage or report to others are among finitely many, and the providers carry lists
of them.  That bounds every walk over the data, whatever cycles they have.
-/

namespace RecordAccess

/-- Something that answers the questions of the engine. -/
structure Providers where
  /-- Answers a question. -/
  ask : (c : Query) → Run c.Answer
  /-- Contains every group that is a member of a group. -/
  nestedGroups : List GroupId
  /-- Contains every user that has a manager. -/
  managedUsers : List UserId
  /-- Contains every user that manages another. -/
  managers : List UserId
  /-- Answering a question asks no other. -/
  calls_ask : ∀ c, (ask c).calls = []
  nested_of_child : ∀ g gs, (ask (.childGroups g)).outcome = .ok gs → ∀ c ∈ gs, c ∈ nestedGroups
  managed_of_subordinate : ∀ m us, (ask (.subordinates m)).outcome = .ok us →
    ∀ u ∈ us, u.id ∈ managedUsers
  manager_of_user : ∀ id u m, (ask (.user id)).outcome = .ok (some u) → u.manager = some m →
    m ∈ managers

namespace Providers

/-- Asks a question and leaves it behind as an event. -/
def call (p : Providers) (c : Query) : Run c.Answer := do
  Run.emit (.asked c)
  p.ask c

end Providers

end RecordAccess
