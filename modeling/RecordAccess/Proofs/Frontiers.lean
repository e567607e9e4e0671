import Mathlib.Order.Bounds.Basic
import RecordAccess.Proofs.Walks

/-!
# What a walk visits, and what it leaves

A walk visits its nodes by their distance from the start.  After `n` rounds the nodes that are left
to visit are those at distance `n` (`Walk.mem_frontier_iff`), and the nodes that were visited are
those nearer than that, each of them once (`Walk.Asks.exists_visits`).  So the questions a walk asks
are those of its steps at distinct nodes, whether the walk succeeds or is cut short by a step that
fails.
-/

namespace RecordAccess.Walk

variable {α β : Type} {step : α → Run (List β × List α)} {start : List α}

/-! ### Distances -/

theorem isLeast_within_succ {n : ℕ} {b : α} :
    IsLeast {k | Within step start k b} (n + 1) ↔
      Within step start (n + 1) b ∧ ¬ Within step start n b := by
  constructor
  · rintro ⟨h, hleast⟩
    exact ⟨h, fun hn => absurd (hleast hn) (Nat.not_succ_le_self n)⟩
  · rintro ⟨h, hn⟩
    refine ⟨h, fun k hk => ?_⟩
    by_contra hlt
    exact hn (Within.mono hk (by omega))

theorem isLeast_within_zero {b : α} : IsLeast {k | Within step start k b} 0 ↔ b ∈ start := by
  constructor
  · rintro ⟨h, -⟩
    cases h with
    | start h => exact h
  · exact fun h => ⟨.start h, fun k _ => Nat.zero_le k⟩

theorem within_and_not_isLeast {n : ℕ} {b : α} :
    Within step start n b ∧ ¬ IsLeast {k | Within step start k b} n ↔
      ∃ k < n, Within step start k b := by
  constructor
  · rintro ⟨h, hnot⟩
    by_contra hnone
    refine hnot ⟨h, fun k hk => ?_⟩
    by_contra hlt
    exact hnone ⟨k, by omega, hk⟩
  · rintro ⟨k, hk, h⟩
    exact ⟨h.mono hk.le, fun hleast => absurd (hleast.2 h) (by omega)⟩

/-! ### Frontiers -/

variable [DecidableEq α]

/-- The nodes that a round meets for the first time are one step further away. -/
theorem Covers.mem_fresh_iff {n : ℕ} {w : Walk α β} (hw : Covers step start n w) {m : Met α}
    {found : List β} (hv : Visited step w.frontier ⟨w.seen, []⟩ m w.found found) {b : α} :
    b ∈ m.fresh ↔ IsLeast {k | Within step start k b} (n + 1) := by
  have hnext := (hw.round hv).mem_seen b
  rw [isLeast_within_succ, ← hnext, ← hw.mem_seen b, hv.mem_fresh, hv.mem_seen]
  simp only [List.not_mem_nil, false_or]
  tauto

theorem Covers.mem_frontier_rounds {n k : ℕ} {w w' : Walk α β} (hw : Covers step start n w)
    (hfrontier : ∀ a, a ∈ w.frontier ↔ IsLeast {m | Within step start m a} n)
    (h : (Walk.rounds step k w).outcome = .ok w') (a : α) :
    a ∈ w'.frontier ↔ IsLeast {m | Within step start m a} (n + k) := by
  induction k generalizing n w with
  | zero =>
    cases h
    exact hfrontier a
  | succ k ih =>
    unfold Walk.rounds at h
    split at h
    · rename_i hempty
      have hnil := List.isEmpty_iff.1 hempty
      cases h
      -- all there is was met before, so nothing is further away
      refine iff_of_false (by simp [hnil]) fun hleast => ?_
      have hseen := ((hw.stay hnil (k + 1)).mem_seen a).2 hleast.1
      exact absurd (hleast.2 ((hw.mem_seen a).1 hseen)) (by omega)
    · obtain ⟨⟨m, found⟩, hvisit, hrest⟩ := Run.outcome_bind_eq_ok.1 h
      have hv := visited_of_visit hvisit
      have := ih (hw.round hv) (fun b => hw.mem_fresh_iff hv) hrest
      rwa [Nat.add_assoc, Nat.add_comm 1 k] at this

/-- **What is left to visit after some rounds** are the nodes at that distance from the start. -/
theorem mem_frontier_iff {n : ℕ} {w : Walk α β}
    (h : (rounds step n (Walk.start start)).outcome = .ok w) {a : α} :
    a ∈ w.frontier ↔ IsLeast {m | Within step start m a} n := by
  have hstart : ∀ b, b ∈ (Walk.start start : Walk α β).frontier ↔
      IsLeast {m | Within step start m b} 0 := fun b => by
    rw [isLeast_within_zero]
    simp [Walk.start, Met.mem_fresh_addAll]
  simpa using (covers_start start).mem_frontier_rounds hstart h a

/-! ### Visits -/

/-- A step asks certain questions at each node, all of them where it succeeds. -/
structure Asks (step : α → Run (List β × List α)) (asks : α → List Query) : Prop where
  begun : ∀ a, (step a).calls <+: asks a
  whole : ∀ a r, (step a).outcome = .ok r → (step a).calls = asks a

theorem exists_added_of_visit {as : List α} {m m' : Met α} {found found' : List β}
    (h : (visit step as m found).outcome = .ok (m', found')) :
    ∃ added, m'.seen = m.seen ++ added ∧ m'.fresh = m.fresh ++ added := by
  induction as generalizing m found with
  | nil =>
    cases h
    exact ⟨[], by simp⟩
  | cons a as ih =>
    obtain ⟨r, -, hrest⟩ := Run.outcome_bind_eq_ok.1 h
    obtain ⟨added, hseen, hfresh, -⟩ := Met.exists_addAll r.2 m
    obtain ⟨more, hseen', hfresh'⟩ := ih hrest
    refine ⟨added ++ more, ?_, ?_⟩
    · rw [hseen', hseen, List.append_assoc]
    · rw [hfresh', hfresh, List.append_assoc]

theorem Asks.visit {asks : α → List Query} (hasks : Asks step asks) (as : List α) (m : Met α)
    (found : List β) :
    (Walk.visit step as m found).calls <+: as.flatMap asks ∧
      ∀ r, (Walk.visit step as m found).outcome = .ok r →
        (Walk.visit step as m found).calls = as.flatMap asks := by
  -- along the nodes: where a step fails, its questions are begun and nothing is asked after them
  induction as generalizing m found with
  | nil => exact ⟨List.prefix_refl _, fun _ _ => rfl⟩
  | cons a as ih =>
    rw [List.flatMap_cons]
    cases ha : (step a).outcome with
    | error error =>
      refine ⟨?_, fun r hr => ?_⟩
      · rw [Walk.visit, Run.calls_bind_of_error ha]
        exact (hasks.begun a).trans (List.prefix_append _ _)
      · rw [Walk.visit, Run.outcome_bind_of_error ha] at hr
        cases hr
    | ok next =>
      obtain ⟨hbegun, hwhole⟩ := ih (m.addAll next.2) (found ++ next.1)
      rw [Walk.visit, Run.calls_bind_of_ok ha, Run.outcome_bind_of_ok ha, hasks.whole a next ha]
      exact ⟨(List.prefix_append_right_inj _).2 hbegun, fun r hr => by rw [hwhole r hr]⟩

omit [DecidableEq α] in
/-- A walk that stops visits no other nodes than those it has visited. -/
theorem stops_visiting (asks : α → List Query) {w : Walk α β} {done : List α}
    (hseen : w.seen = done ++ w.frontier) (hdone : done.Nodup) :
    ∃ visits, (done ++ visits).Nodup ∧
      (pure w : Run (Walk α β)).calls <+: visits.flatMap asks ∧
      ∀ w', (pure w : Run (Walk α β)).outcome = .ok w' →
        (pure w : Run (Walk α β)).calls = visits.flatMap asks ∧
          w'.seen = done ++ visits ++ w'.frontier := by
  refine ⟨[], by simpa using hdone, List.prefix_refl _, fun w' h => ?_⟩
  cases h
  exact ⟨rfl, by rw [List.append_nil, hseen]⟩

/-- From a walk that has visited `done`, more rounds visit other nodes, each of them once. -/
theorem Asks.rounds {asks : α → List Query} (hasks : Asks step asks) (n : ℕ) {w : Walk α β}
    {done : List α} (hseen : w.seen = done ++ w.frontier) (hnodup : w.seen.Nodup) :
    ∃ visits, (done ++ visits).Nodup ∧
      (Walk.rounds step n w).calls <+: visits.flatMap asks ∧
      ∀ w', (Walk.rounds step n w).outcome = .ok w' →
        (Walk.rounds step n w).calls = visits.flatMap asks ∧
          w'.seen = done ++ visits ++ w'.frontier := by
  have hdone : done.Nodup := (List.nodup_append.1 (hseen ▸ hnodup)).1
  -- what was met is what was visited, and after it what is left to visit
  induction n generalizing w done with
  | zero => exact stops_visiting asks hseen hdone
  | succ n ih =>
    unfold Walk.rounds
    split
    · exact stops_visiting asks hseen hdone
    · obtain ⟨hbegun, hwhole⟩ := hasks.visit w.frontier ⟨w.seen, []⟩ w.found
      cases hvisit : (Walk.visit step w.frontier ⟨w.seen, []⟩ w.found).outcome with
      | error error =>
        refine ⟨w.frontier, hseen ▸ hnodup, ?_, fun w' h => ?_⟩
        · rw [Run.calls_bind_of_error hvisit]
          exact hbegun
        · rw [Run.outcome_bind_of_error hvisit] at h
          cases h
      | ok r =>
        obtain ⟨m, found⟩ := r
        obtain ⟨added, hs, hf⟩ := exists_added_of_visit hvisit
        rw [List.nil_append] at hf
        have hmseen : m.seen = (done ++ w.frontier) ++ m.fresh := by rw [hs, hf, hseen]
        obtain ⟨visits, hvisits, hcalls, hok⟩ :=
          ih (w := ⟨m.seen, m.fresh, found⟩) hmseen ((visited_of_visit hvisit).nodup hnodup)
            (hseen ▸ hnodup)
        rw [Run.calls_bind_of_ok hvisit, Run.outcome_bind_of_ok hvisit, hwhole _ hvisit]
        refine ⟨w.frontier ++ visits, by rwa [← List.append_assoc], ?_, fun w' h => ?_⟩
        · rw [List.flatMap_append]
          exact (List.prefix_append_right_inj _).2 hcalls
        · obtain ⟨hcalls', hseen'⟩ := hok w' h
          exact ⟨by rw [List.flatMap_append, hcalls'], by rw [hseen', List.append_assoc done]⟩

/-- **A walk visits each node once**, and where it succeeds it visits exactly the nodes that are
nearer than its number of rounds. -/
theorem Asks.exists_visits {asks : α → List Query} (hasks : Asks step asks) (n : ℕ)
    (start : List α) :
    ∃ visits : List α, visits.Nodup ∧
      (Walk.rounds step n (Walk.start start)).calls <+: visits.flatMap asks ∧
      ∀ w, (Walk.rounds step n (Walk.start start)).outcome = .ok w →
        (Walk.rounds step n (Walk.start start)).calls = visits.flatMap asks ∧
          w.seen = visits ++ w.frontier ∧
          ∀ a, a ∈ visits ↔ ∃ k < n, Within step start k a := by
  have hseen : (Walk.start start : Walk α β).seen =
      [] ++ (Walk.start start : Walk α β).frontier := by
    obtain ⟨added, hs, hf, -⟩ := Met.exists_addAll start ⟨[], []⟩
    exact hs.trans hf.symm
  obtain ⟨visits, hvisits, hbegun, hok⟩ :=
    hasks.rounds n hseen (Met.nodup_addAll List.nodup_nil)
  refine ⟨visits, hvisits, hbegun, fun w hw => ?_⟩
  obtain ⟨hcalls, hsplit⟩ := hok w hw
  refine ⟨hcalls, hsplit, fun a => ?_⟩
  have hc := covers_rounds hw
  have hapart := (List.nodup_append.1 (hsplit ▸ hc.nodup)).2.2
  -- the visited nodes are those that were met, less those that are left to visit
  rw [← within_and_not_isLeast, ← hc.mem_seen, ← mem_frontier_iff hw, hsplit]
  simp only [List.nil_append, List.mem_append] at hapart ⊢
  constructor
  · exact fun ha => ⟨.inl ha, fun hf => hapart a ha a hf rfl⟩
  · exact fun h => h.1.resolve_right h.2

/-- A walk that ends has visited exactly what can be reached. -/
theorem Asks.exists_visits_of_ends {asks : α → List Query} (hasks : Asks step asks) {a : α}
    {bound : List α} (hbound : ∀ b c, Leads step b c → c ∈ bound) {w : Walk α β}
    (hw : (Walk.rounds step (bound.length + 1) (Walk.start [a])).outcome = .ok w) :
    ∃ visits : List α, visits.Nodup ∧
      (Walk.rounds step (bound.length + 1) (Walk.start [a])).calls = visits.flatMap asks ∧
      ∀ b, b ∈ visits ↔ Relation.ReflTransGen (Leads step) a b := by
  obtain ⟨visits, hnodup, -, hok⟩ := hasks.exists_visits (bound.length + 1) [a]
  obtain ⟨hcalls, hseen, -⟩ := hok w hw
  have hend := frontier_eq_nil hbound hw
  rw [hend, List.append_nil] at hseen
  refine ⟨visits, hnodup, hcalls, fun b => ?_⟩
  rw [← hseen, (covers_rounds hw).mem_seen_iff hend]
  simp only [List.mem_singleton, exists_eq_left]

theorem nodup_frontier {n : ℕ} {w : Walk α β}
    (h : (rounds step n (Walk.start start)).outcome = .ok w) : w.frontier.Nodup := by
  have hasks : Asks step fun a => (step a).calls := ⟨fun _ => List.prefix_refl _, fun _ _ _ => rfl⟩
  obtain ⟨visits, -, -, hok⟩ := hasks.exists_visits n start
  exact (List.nodup_append.1 ((hok w h).2.1 ▸ (covers_rounds h).nodup)).2.1

/-- A walk asks nothing twice, where its steps do not and different nodes are asked about in
different questions. -/
theorem Asks.nodup_calls {asks : α → List Query} (hasks : Asks step asks)
    (hnodup : ∀ a, (asks a).Nodup) (hapart : ∀ a b, ∀ c ∈ asks a, c ∈ asks b → a = b) (n : ℕ)
    (start : List α) : (Walk.rounds step n (Walk.start start)).calls.Nodup := by
  obtain ⟨visits, hvisits, hbegun, -⟩ := hasks.exists_visits n start
  refine hbegun.sublist.nodup (List.nodup_flatMap.2 ⟨fun a _ => hnodup a, ?_⟩)
  exact hvisits.imp fun hab c hca hcb => hab (hapart _ _ c hca hcb)

end RecordAccess.Walk
