import RecordAccess.Id

/-!
# Principals

A `Principal` is a population of users that a sharing rule refers to, as its recipients or as the
owners whose records it opens.  A `ShareSubject` is the narrower choice a record share has.  Both
are stored as a kind and an id (`kind`, `idText`, `ofParts?`).
-/

namespace RecordAccess

/-- A population of users. -/
inductive Principal
  | user (id : UserId)
  | group (id : GroupId)
  /-- Queues are stored as groups and hold the same users. -/
  | queue (id : GroupId)
  | role (id : RoleId)
deriving DecidableEq

namespace Principal

/-- The kind as it is stored. -/
def kind : Principal → String
  | .user _ => "USER"
  | .group _ => "GROUP"
  | .queue _ => "QUEUE"
  | .role _ => "ROLE"

/-- The text of the id. -/
def idText : Principal → String
  | .user id => id.text
  | .group id => id.text
  | .queue id => id.text
  | .role id => id.text

/-- The principal with a stored kind and id, when there is such a kind. -/
def ofParts? (kind id : String) : Option Principal :=
  if kind = "USER" then some (.user ⟨id⟩)
  else if kind = "GROUP" then some (.group ⟨id⟩)
  else if kind = "QUEUE" then some (.queue ⟨id⟩)
  else if kind = "ROLE" then some (.role ⟨id⟩)
  else none

@[simp]
theorem ofParts?_kind_idText (p : Principal) : ofParts? p.kind p.idText = some p := by
  cases p <;> simp [ofParts?, kind, idText]

/-- The text of a principal: its kind, a colon and its id. -/
def display (p : Principal) : String := p.kind ++ ":" ++ p.idText

end Principal

/-- Whom a record share was granted to. -/
inductive ShareSubject
  | user (id : UserId)
  | group (id : GroupId)
deriving DecidableEq

namespace ShareSubject

/-- The kind as it is stored. -/
def kind : ShareSubject → String
  | .user _ => "USER"
  | .group _ => "GROUP"

/-- The text of the id. -/
def idText : ShareSubject → String
  | .user id => id.text
  | .group id => id.text

/-- The subject with a stored kind and id, when there is such a kind. -/
def ofParts? (kind id : String) : Option ShareSubject :=
  if kind = "USER" then some (.user ⟨id⟩)
  else if kind = "GROUP" then some (.group ⟨id⟩)
  else none

@[simp]
theorem ofParts?_kind_idText (s : ShareSubject) : ofParts? s.kind s.idText = some s := by
  cases s <;> simp [ofParts?, kind, idText]

end ShareSubject

end RecordAccess
