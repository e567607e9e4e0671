import RecordAccess.Providers
import RecordAccess.Subject

/-!
# The engine

An `Engine` is a set of data providers with the settings that decisions depend on.  It keeps no
state: every operation is a function of what the providers answer.
-/

namespace RecordAccess

/-- The settings that decisions depend on. -/
structure EngineSettings where
  /-- How many steps up from a user's direct groups their parents are followed. -/
  maxGroupDepth : Nat := 10
  managerScope : ManagerScope := .direct
deriving DecidableEq, Inhabited

/-- Data providers with settings. -/
structure Engine where
  providers : Providers
  settings : EngineSettings

namespace Engine

/-- Asks a question. -/
def ask (e : Engine) (c : Query) : Run c.Answer := e.providers.call c

/-- The default of a collection; one that is not recorded is open to everyone. -/
def defaultAccess (e : Engine) (tenant : TenantId) (collection : CollectionId) :
    Run DefaultAccess := do
  match ← e.ask (.orgWideDefault tenant collection) with
  | none => pure default
  | some d => pure d.access

/-- The engine as a text for diagnosis. -/
def debugText (e : Engine) : String :=
  "RecordAccessService \x7b groups: GroupMembershipResolver \x7b max_depth: " ++
    Decimal.text e.settings.maxGroupDepth ++ " \x7d, manager_scope: " ++
    (match e.settings.managerScope with
      | .direct => "Direct"
      | .transitive => "Transitive") ++ " \x7d"

end Engine

end RecordAccess
