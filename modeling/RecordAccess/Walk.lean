import RecordAccess.Run

/-!
# Walks over a graph

A walk goes round by round: each round visits the nodes met for the first time in the round before,
in order, and collects what lies at them.  A node is never visited twice.  The steps are runs, so a
walk ends at the first step that fails.

Main definitions: `Walk.start`, `Walk.rounds`.
-/

namespace RecordAccess

variable {α β : Type}

/-! ### Meeting nodes -/

/-- The nodes seen so far, in the order of meeting them, and among them the fresh ones. -/
structure Met (α : Type) where
  seen : List α
  fresh : List α

namespace Met

variable [DecidableEq α]

/-- Meets one node. -/
def add (m : Met α) (a : α) : Met α :=
  if a ∈ m.seen then m else ⟨m.seen ++ [a], m.fresh ++ [a]⟩

/-- Meets the nodes of a list in order. -/
def addAll (m : Met α) (as : List α) : Met α := as.foldl add m

end Met

/-! ### Rounds -/

/-- The state of a walk between two rounds. -/
structure Walk (α β : Type) where
  /-- Every node met so far. -/
  seen : List α
  /-- The nodes to visit in the next round. -/
  frontier : List α
  /-- What was collected so far. -/
  found : List β

namespace Walk

variable [DecidableEq α]

/-- The walk that starts at the nodes of a list. -/
def start (nodes : List α) : Walk α β :=
  let m := Met.addAll ⟨[], []⟩ nodes
  ⟨m.seen, m.fresh, []⟩

/-- Visits nodes in order; a step gives what lies at a node and the nodes next to it. -/
def visit (step : α → Run (List β × List α)) :
    List α → Met α → List β → Run (Met α × List β)
  | [], m, found => pure (m, found)
  | a :: rest, m, found => do
    let (here, next) ← step a
    visit step rest (m.addAll next) (found ++ here)

/-- Walks until no node is left to visit, but at most a number of rounds. -/
def rounds (step : α → Run (List β × List α)) : Nat → Walk α β → Run (Walk α β)
  | 0, w => pure w
  | n + 1, w =>
    if w.frontier.isEmpty then pure w
    else do
      let (m, found) ← visit step w.frontier ⟨w.seen, []⟩ w.found
      rounds step n ⟨m.seen, m.fresh, found⟩

end Walk

end RecordAccess
