import RecordAccess.Proofs.Sorting
import RecordAccess.Proofs.Walks

/-!
# Runs that are alike

Two runs are alike when they fail with the same error or give values that are related.  `Run.Alike`
goes through composed runs (`Run.Alike.bind`), so that two runs over different data are compared
part by part.

Two walks whose steps are alike wherever they are meet the same nodes (`Walk.StepsAlike.rounds`) and
find the same (`Walk.StepsAlike.walk`), although they may come to them in different order.
-/

namespace RecordAccess

/-! ### Runs -/

/-- Two runs fail with one error, or give values that are related. -/
inductive Run.Alike {α : Type} (R : α → α → Prop) (r' r : Run α) : Prop
  | failed (error : AccessError) (outcome' : r'.outcome = .error error)
    (outcome : r.outcome = .error error)
  | given (a' a : α) (outcome' : r'.outcome = .ok a') (outcome : r.outcome = .ok a)
    (related : R a' a)

namespace Run.Alike

variable {α β : Type} {R : α → α → Prop} {S : β → β → Prop} {r' r : Run α}

theorem pure {a' a : α} (h : R a' a) : Alike R (Pure.pure a') (Pure.pure a) :=
  .given a' a rfl rfl h

theorem same (a : α) : Alike Eq (Pure.pure a) (Pure.pure a) := .pure rfl

theorem count (c : Counter) : Alike Eq (Run.count c) (Run.count c) := .given () () rfl rfl rfl

theorem congr {q' q : Run α} (h : Alike R q' q) (h' : r'.outcome = q'.outcome)
    (hr : r.outcome = q.outcome) : Alike R r' r := by
  cases h with
  | failed error hq' hq => exact .failed error (h'.trans hq') (hr.trans hq)
  | given a' a hq' hq hR => exact .given a' a (h'.trans hq') (hr.trans hq) hR

/-- **Composed runs are alike** when their parts are. -/
theorem bind {f' f : α → Run β} (h : Alike R r' r)
    (hf : ∀ a' a, R a' a → Alike S (f' a') (f a)) : Alike S (r' >>= f') (r >>= f) := by
  cases h with
  | failed error hr' hr =>
    exact .failed error (outcome_bind_of_error hr' f') (outcome_bind_of_error hr f)
  | given a' a hr' hr hR =>
    exact (hf a' a hR).congr (outcome_bind_of_ok hr' f') (outcome_bind_of_ok hr f)

theorem bind_same {f' f : α → Run β} (h : Alike Eq r' r) (hf : ∀ a, Alike S (f' a) (f a)) :
    Alike S (r' >>= f') (r >>= f) :=
  h.bind fun a' a heq => by subst heq; exact hf a'

theorem mono {R' : α → α → Prop} (h : Alike R r' r) (hR : ∀ a' a, R a' a → R' a' a) :
    Alike R' r' r := by
  cases h with
  | failed error hr' hr => exact .failed error hr' hr
  | given a' a hr' hr hrelated => exact .given a' a hr' hr (hR a' a hrelated)

theorem of_outcome_eq (h : r'.outcome = r.outcome) : Alike Eq r' r := by
  cases hr : r.outcome with
  | error error => exact .failed error (h.trans hr) hr
  | ok a => exact .given a a (h.trans hr) hr rfl

theorem outcome_eq (h : Alike Eq r' r) : r'.outcome = r.outcome := by
  cases h with
  | failed error hr' hr => rw [hr', hr]
  | given a' a hr' hr heq => rw [hr', hr, heq]

end Run.Alike

/-! ### Walks -/

namespace Walk

open Run

variable {α β : Type} {step' step : α → Run (List β × List α)}

/-- The steps of two walks fail with one error, wherever they are, or find and lead to the same. -/
inductive StepsAlike (step' step : α → Run (List β × List α)) : Prop
  | never (error : AccessError)
    (refused : ∀ a, (step' a).outcome = .error error ∧ (step a).outcome = .error error)
  | always (agree : ∀ a, ∃ r' r, (step' a).outcome = .ok r' ∧ (step a).outcome = .ok r ∧
      SameMembers r'.1 r.1 ∧ SameMembers r'.2 r.2)

theorem leads_and_lies_eq (h : ∀ a, ∃ r' r, (step' a).outcome = .ok r' ∧
    (step a).outcome = .ok r ∧ SameMembers r'.1 r.1 ∧ SameMembers r'.2 r.2) :
    Leads step' = Leads step ∧ Lies step' = Lies step := by
  constructor
  · funext a b
    obtain ⟨r', r, hr', hr, -, hnext⟩ := h a
    exact propext (by rw [leads_iff_of_ok hr', leads_iff_of_ok hr, hnext b])
  · funext a x
    obtain ⟨r', r, hr', hr, hhere, -⟩ := h a
    exact propext (by rw [lies_iff_of_ok hr', lies_iff_of_ok hr, hhere x])

theorem exists_ok_of_agree (h : ∀ a, ∃ r' r, (step' a).outcome = .ok r' ∧
    (step a).outcome = .ok r ∧ SameMembers r'.1 r.1 ∧ SameMembers r'.2 r.2) :
    (∀ a, ∃ r, (step' a).outcome = .ok r) ∧ ∀ a, ∃ r, (step a).outcome = .ok r := by
  constructor
  · intro a
    obtain ⟨r', -, hr', -⟩ := h a
    exact ⟨r', hr'⟩
  · intro a
    obtain ⟨-, r, -, hr, -⟩ := h a
    exact ⟨r, hr⟩

theorem Within.of_leads_eq {nodes' nodes : List α} (hnodes : SameMembers nodes' nodes)
    (hleads : Leads step' = Leads step) {n : ℕ} {a : α} (h : Within step' nodes' n a) :
    Within step nodes n a := by
  induction h with
  | start h => exact .start ((hnodes _).1 h)
  | later _ ih => exact ih.later
  | next _ hab ih => exact ih.next (hleads ▸ hab)

variable [DecidableEq α]

/-- Walks with steps that always fail fail as well, unless there is nothing to visit. -/
theorem alike_rounds_of_refused {R : Walk α β → Walk α β → Prop} {error : AccessError}
    (h : ∀ a, (step' a).outcome = .error error ∧ (step a).outcome = .error error)
    {w' w : Walk α β} (hfrontier : w'.frontier.isEmpty = w.frontier.isEmpty) (hR : R w' w)
    (n : ℕ) : Run.Alike R (rounds step' n w') (rounds step n w) := by
  have hvisit : ∀ {step : α → Run (List β × List α)} {w : Walk α β},
      (∀ a, (step a).outcome = .error error) → w.frontier.isEmpty = false →
      (visit step w.frontier ⟨w.seen, []⟩ w.found).outcome = .error error := by
    intro step w hstep hne
    cases hw : w.frontier with
    | nil => simp [hw] at hne
    | cons a as => exact outcome_bind_of_error (hstep a) _
  -- the first node to be visited fails the round
  cases n with
  | zero => exact .pure hR
  | succ n =>
    unfold rounds
    cases hempty : w.frontier.isEmpty with
    | true =>
      rw [hfrontier, hempty]
      exact .pure hR
    | false =>
      rw [hfrontier, hempty]
      exact .failed error
        (outcome_bind_of_error (hvisit (fun a => (h a).1) (hfrontier.trans hempty)) _)
        (outcome_bind_of_error (hvisit (fun a => (h a).2) hempty) _)

theorem isEmpty_frontier_start {nodes' nodes : List α} (h : SameMembers nodes' nodes) :
    (start nodes' : Walk α β).frontier.isEmpty = (start nodes : Walk α β).frontier.isEmpty := by
  refine SameMembers.isEmpty_eq fun a => ?_
  simp only [start, Met.mem_fresh_addAll, List.not_mem_nil, not_false_eq_true, true_and, false_or,
    h a]

/-- **Walks of as many rounds meet the same nodes** when their steps are alike. -/
theorem StepsAlike.rounds (h : StepsAlike step' step) {nodes' nodes : List α}
    (hnodes : SameMembers nodes' nodes) (n : ℕ) :
    Run.Alike (fun w' w => SameMembers w'.seen w.seen) (rounds step' n (start nodes'))
      (rounds step n (start nodes)) := by
  cases h with
  | never error hrefused =>
    refine alike_rounds_of_refused hrefused (isEmpty_frontier_start hnodes) (fun a => ?_) n
    simp only [start, Met.mem_seen_addAll, List.not_mem_nil, false_or, hnodes a]
  | always hagree =>
    obtain ⟨hleads, -⟩ := leads_and_lies_eq hagree
    obtain ⟨hok', hok⟩ := exists_ok_of_agree hagree
    obtain ⟨w', hw'⟩ := exists_ok_rounds hok' n (start nodes')
    obtain ⟨w, hw⟩ := exists_ok_rounds hok n (start nodes)
    refine .given w' w hw' hw fun a => ?_
    rw [(covers_rounds hw').mem_seen, (covers_rounds hw).mem_seen]
    exact ⟨.of_leads_eq hnodes hleads, .of_leads_eq (fun a => (hnodes a).symm) hleads.symm⟩

/-- **Walks that come to an end find the same** when their steps are alike, whatever they have in
rounds. -/
theorem StepsAlike.walk (h : StepsAlike step' step) {bound' bound : List α}
    (hbound' : ∀ b c, Leads step' b c → c ∈ bound') (hbound : ∀ b c, Leads step b c → c ∈ bound)
    (a : α) :
    Run.Alike (fun w' w => SameMembers w'.found w.found)
      (Walk.rounds step' (bound'.length + 1) (start [a]))
      (Walk.rounds step (bound.length + 1) (start [a])) := by
  cases h with
  | never error hrefused =>
    exact .failed error (outcome_bind_of_error (outcome_bind_of_error (hrefused a).1 _) _)
      (outcome_bind_of_error (outcome_bind_of_error (hrefused a).2 _) _)
  | always hagree =>
    -- both walks end, so each has found all that lies along its steps
    obtain ⟨hleads, hlies⟩ := leads_and_lies_eq hagree
    obtain ⟨hok', hok⟩ := exists_ok_of_agree hagree
    obtain ⟨w', hw'⟩ := exists_ok_rounds hok' (bound'.length + 1) (start [a])
    obtain ⟨w, hw⟩ := exists_ok_rounds hok (bound.length + 1) (start [a])
    refine .given w' w hw' hw fun x => ?_
    rw [(covers_rounds hw').mem_found_iff (frontier_eq_nil hbound' hw'),
      (covers_rounds hw).mem_found_iff (frontier_eq_nil hbound hw), hleads, hlies]

end Walk

end RecordAccess
