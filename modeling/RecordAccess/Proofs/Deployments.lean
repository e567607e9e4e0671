import RecordAccess.Proofs.Histories

/-!
# Deployments

A `Deployment` is a store together with the settings of the engine over it.  It changes step by
step, through what is put into the store and through the settings.
-/

namespace RecordAccess

/-- A store and the settings of the engine over it. -/
structure Deployment where
  store : Store := .empty
  settings : EngineSettings := {}

/-- A change of a deployment. -/
inductive Change
  | store (m : Mutation)
  | managerScope (scope : ManagerScope)
  | maxGroupDepth (depth : ℕ)

namespace Deployment

/-- The deployment after one change. -/
def apply (d : Deployment) : Change → Deployment
  | .store m => { d with store := d.store.apply m }
  | .managerScope scope => { d with settings := { d.settings with managerScope := scope } }
  | .maxGroupDepth depth => { d with settings := { d.settings with maxGroupDepth := depth } }

/-- The deployment after changes in order. -/
def applyAll (d : Deployment) (changes : List Change) : Deployment := changes.foldl apply d

/-- The deployment that a history of changes leads to. -/
def ofHistory (changes : List Change) : Deployment := ({} : Deployment).applyAll changes

/-- The engine of a deployment. -/
def engine (d : Deployment) : Engine := d.store.engine d.settings

variable {d : Deployment}

theorem consistent_apply (hd : d.store.Consistent) (c : Change) :
    (d.apply c).store.Consistent := by
  cases c with
  | store m => exact hd.apply m
  | managerScope => exact hd
  | maxGroupDepth => exact hd

theorem consistent_applyAll (hd : d.store.Consistent) (changes : List Change) :
    (d.applyAll changes).store.Consistent := by
  induction changes generalizing d with
  | nil => exact hd
  | cons c changes ih => exact ih (consistent_apply hd c)

theorem consistent_ofHistory (changes : List Change) :
    (ofHistory changes).store.Consistent :=
  consistent_applyAll (Store.consistent_ofHistory []) changes

end Deployment

end RecordAccess
