import Mathlib.Data.List.Nodup
import Mathlib.Data.List.Perm.Subperm
import Mathlib.Logic.Relation
import RecordAccess.Proofs.Runs
import RecordAccess.Walk

/-!
# What a walk covers

A walk that succeeds after `n` rounds has met exactly the nodes within `n` steps of its start
(`Walk.covers_rounds`).  Once no node is left to visit, these are all nodes that can be reached
(`Walk.Covers.mem_seen_iff`, `Walk.Covers.mem_found_iff`), and that happens whenever there are more
rounds than nodes a step can lead to (`Walk.frontier_eq_nil`), whatever cycles the graph has.

Nothing is assumed of the steps: a step that fails leads nowhere, and a walk that meets one fails.
-/

namespace RecordAccess

variable {α β : Type}

/-! ### Meeting nodes -/

namespace Met

variable [DecidableEq α]

/-- Meeting nodes appends the same nodes to those seen and to the fresh ones. -/
theorem exists_addAll (as : List α) (m : Met α) :
    ∃ added, (m.addAll as).seen = m.seen ++ added ∧ (m.addAll as).fresh = m.fresh ++ added ∧
      (m.seen.Nodup → (m.seen ++ added).Nodup) ∧
      (∀ b, b ∈ added ↔ b ∉ m.seen ∧ b ∈ as) := by
  induction as generalizing m with
  | nil => exact ⟨[], by simp [addAll], by simp [addAll], by simp, by simp⟩
  | cons a as ih =>
    obtain ⟨added, hs, hf, hn, hm⟩ := ih (m.add a)
    change ((m.add a).addAll as).seen = _ at hs
    -- a node met before changes nothing, a new one is appended to both
    by_cases ha : a ∈ m.seen
    · have hadd : m.add a = m := by simp [add, ha]
      rw [hadd] at hs hf hn hm
      refine ⟨added, ?_, ?_, hn, fun b => ?_⟩
      · rw [← hs]; simp [addAll, hadd]
      · rw [← hf]; simp [addAll, hadd]
      · rw [hm, List.mem_cons]
        constructor
        · rintro ⟨h, hb⟩; exact ⟨h, .inr hb⟩
        · rintro ⟨h, rfl | hb⟩
          · exact absurd ha h
          · exact ⟨h, hb⟩
    · have hadd : m.add a = ⟨m.seen ++ [a], m.fresh ++ [a]⟩ := by simp [add, ha]
      rw [hadd] at hs hf hn hm
      refine ⟨a :: added, ?_, ?_, fun h => ?_, fun b => ?_⟩
      · rw [List.append_cons, ← hs]; simp [addAll, hadd]
      · rw [List.append_cons, ← hf]; simp [addAll, hadd]
      · rw [List.append_cons]
        refine hn (List.nodup_append.2 ⟨h, by simp, ?_⟩)
        rintro x hx y hy rfl
        exact ha (List.mem_singleton.1 hy ▸ hx)
      · simp only [List.mem_cons, hm, List.mem_append, List.not_mem_nil, or_false, not_or]
        constructor
        · rintro (rfl | ⟨⟨h, -⟩, hb⟩)
          · exact ⟨ha, .inl rfl⟩
          · exact ⟨h, .inr hb⟩
        · rintro ⟨h, hb⟩
          by_cases hba : b = a
          · exact .inl hba
          · exact .inr ⟨⟨h, hba⟩, hb.resolve_left hba⟩

theorem mem_seen_addAll {m : Met α} {as : List α} {b : α} :
    b ∈ (m.addAll as).seen ↔ b ∈ m.seen ∨ b ∈ as := by
  obtain ⟨added, hs, -, -, hm⟩ := exists_addAll as m
  rw [hs, List.mem_append, hm]
  by_cases hb : b ∈ m.seen <;> simp [hb]

theorem mem_fresh_addAll {m : Met α} {as : List α} {b : α} :
    b ∈ (m.addAll as).fresh ↔ b ∈ m.fresh ∨ b ∉ m.seen ∧ b ∈ as := by
  obtain ⟨added, -, hf, -, hm⟩ := exists_addAll as m
  rw [hf, List.mem_append, hm]

theorem nodup_addAll {m : Met α} {as : List α} (h : m.seen.Nodup) : (m.addAll as).seen.Nodup := by
  obtain ⟨added, hs, -, hn, -⟩ := exists_addAll as m
  rw [hs]
  exact hn h

theorem length_addAll (m : Met α) (as : List α) :
    (m.addAll as).seen.length + m.fresh.length = m.seen.length + (m.addAll as).fresh.length := by
  obtain ⟨added, hs, hf, -, -⟩ := exists_addAll as m
  rw [hs, hf, List.length_append, List.length_append]
  omega

end Met

namespace Walk

/-! ### The graph of a step -/

section Graph

variable (step : α → Run (List β × List α))

/-- A step that succeeds leads from a node to another. -/
def Leads (a b : α) : Prop := ∃ here next, (step a).outcome = .ok (here, next) ∧ b ∈ next

/-- A step that succeeds finds something at a node. -/
def Lies (a : α) (x : β) : Prop := ∃ here next, (step a).outcome = .ok (here, next) ∧ x ∈ here

/-- Some path of at most a number of steps leads to a node from one of the start. -/
inductive Within (start : List α) : ℕ → α → Prop
  | start {a : α} (h : a ∈ start) : Within start 0 a
  | later {n : ℕ} {a : α} (h : Within start n a) : Within start (n + 1) a
  | next {n : ℕ} {a b : α} (h : Within start n a) (hab : Leads step a b) : Within start (n + 1) b

/-- What is known of a walk from some nodes after a number of rounds. -/
structure Covers (start : List α) (n : ℕ) (w : Walk α β) : Prop where
  nodup : w.seen.Nodup
  mem_seen : ∀ a, a ∈ w.seen ↔ Within step start n a
  frontier_subset : ∀ a ∈ w.frontier, a ∈ w.seen
  visited : ∀ a ∈ w.seen, a ∉ w.frontier → ∃ r, (step a).outcome = .ok r
  next_subset : ∀ a ∈ w.seen, a ∉ w.frontier → ∀ b, Leads step a b → b ∈ w.seen
  mem_found : ∀ x, x ∈ w.found ↔ ∃ a ∈ w.seen, a ∉ w.frontier ∧ Lies step a x

variable {step}

theorem leads_iff_of_ok {a b : α} {r : List β × List α} (h : (step a).outcome = .ok r) :
    Leads step a b ↔ b ∈ r.2 := by
  constructor
  · rintro ⟨here, next, h', hb⟩
    rw [h] at h'
    cases h'
    exact hb
  · exact fun hb => ⟨r.1, r.2, h, hb⟩

theorem lies_iff_of_ok {a : α} {x : β} {r : List β × List α} (h : (step a).outcome = .ok r) :
    Lies step a x ↔ x ∈ r.1 := by
  constructor
  · rintro ⟨here, next, h', hx⟩
    rw [h] at h'
    cases h'
    exact hx
  · exact fun hx => ⟨r.1, r.2, h, hx⟩

theorem Within.exists_reachable {start : List α} {n : ℕ} {b : α} (h : Within step start n b) :
    ∃ a ∈ start, Relation.ReflTransGen (Leads step) a b := by
  induction h with
  | start h => exact ⟨_, h, .refl⟩
  | later _ ih => exact ih
  | next _ hab ih =>
    obtain ⟨a, ha, hr⟩ := ih
    exact ⟨a, ha, hr.tail hab⟩

theorem Within.mono {start : List α} {n m : ℕ} {a : α} (h : Within step start n a) (hnm : n ≤ m) :
    Within step start m a := by
  induction hnm with
  | refl => exact h
  | step _ ih => exact ih.later

theorem Within.of_closed {start : List α} {n m : ℕ} {a : α} (h : Within step start m a)
    (hclosed : ∀ b c, Within step start n b → Leads step b c → Within step start n c) :
    Within step start n a := by
  induction h with
  | start h => exact (Within.start h).mono (Nat.zero_le n)
  | later _ ih => exact ih
  | next _ hab ih => exact hclosed _ _ ih hab

namespace Covers

variable {start : List α} {n : ℕ} {w : Walk α β}

/-- A walk with nothing left to visit has met all it can reach. -/
theorem stay (hw : Covers step start n w)
    (hf : w.frontier = []) (m : ℕ) : Covers step start (n + m) w := by
  refine ⟨hw.nodup, fun a => ?_, hw.frontier_subset, hw.visited, hw.next_subset, hw.mem_found⟩
  refine (hw.mem_seen a).trans ⟨fun h => h.mono (Nat.le_add_right n m), fun h => ?_⟩
  refine h.of_closed fun b c hb hbc => (hw.mem_seen c).1 ?_
  exact hw.next_subset b ((hw.mem_seen b).2 hb) (by simp [hf]) c hbc

/-- **A walk that has ended has met exactly what can be reached.** -/
theorem mem_seen_iff (hw : Covers step start n w) (hf : w.frontier = []) {b : α} :
    b ∈ w.seen ↔ ∃ a ∈ start, Relation.ReflTransGen (Leads step) a b := by
  constructor
  · exact fun hb => ((hw.mem_seen b).1 hb).exists_reachable
  · rintro ⟨a, ha, hab⟩
    induction hab with
    | refl => exact (hw.mem_seen a).2 ((Within.start ha).mono (Nat.zero_le n))
    | tail _ hbc ih => exact hw.next_subset _ ih (by simp [hf]) _ hbc

/-- **A walk that has ended has found exactly what lies at the nodes that can be reached.** -/
theorem mem_found_iff (hw : Covers step start n w) (hf : w.frontier = []) {x : β} :
    x ∈ w.found ↔ ∃ a ∈ start, ∃ b, Relation.ReflTransGen (Leads step) a b ∧ Lies step b x := by
  rw [hw.mem_found]
  constructor
  · rintro ⟨b, hb, -, hbx⟩
    obtain ⟨a, ha, hab⟩ := (hw.mem_seen_iff hf).1 hb
    exact ⟨a, ha, b, hab, hbx⟩
  · rintro ⟨a, ha, b, hab, hbx⟩
    exact ⟨b, (hw.mem_seen_iff hf).2 ⟨a, ha, hab⟩, by simp [hf], hbx⟩

end Covers

end Graph

/-! ### One round -/

variable [DecidableEq α] {step : α → Run (List β × List α)}

/-- What visiting some nodes adds to the nodes met and to what was found. -/
structure Visited (step : α → Run (List β × List α)) (as : List α) (m m' : Met α)
    (found found' : List β) : Prop where
  ok : ∀ a ∈ as, ∃ r, (step a).outcome = .ok r
  nodup : m.seen.Nodup → m'.seen.Nodup
  length : m'.seen.length + m.fresh.length = m.seen.length + m'.fresh.length
  mem_seen : ∀ b, b ∈ m'.seen ↔ b ∈ m.seen ∨ ∃ a ∈ as, Leads step a b
  mem_fresh : ∀ b, b ∈ m'.fresh ↔ b ∈ m.fresh ∨ b ∉ m.seen ∧ ∃ a ∈ as, Leads step a b
  mem_found : ∀ x, x ∈ found' ↔ x ∈ found ∨ ∃ a ∈ as, Lies step a x

theorem visited_of_visit {as : List α} {m m' : Met α} {found found' : List β}
    (h : (visit step as m found).outcome = .ok (m', found')) :
    Visited step as m m' found found' := by
  -- what the first step meets is known before the others take theirs
  induction as generalizing m found with
  | nil =>
    cases h
    exact ⟨by simp, id, rfl, by simp, by simp, by simp⟩
  | cons a as ih =>
    obtain ⟨r, hr, hrest⟩ := Run.outcome_bind_eq_ok.1 h
    have ih := ih hrest
    refine ⟨?_, fun hn => ih.nodup (Met.nodup_addAll hn), ?_, fun b => ?_, fun b => ?_,
      fun x => ?_⟩
    · rintro b hb
      rcases List.mem_cons.1 hb with rfl | hb
      · exact ⟨r, hr⟩
      · exact ih.ok b hb
    · have h₁ := Met.length_addAll m r.2
      have h₂ := ih.length
      omega
    · rw [ih.mem_seen, Met.mem_seen_addAll, List.exists_mem_cons_iff, leads_iff_of_ok hr, or_assoc]
    · rw [ih.mem_fresh, Met.mem_fresh_addAll, Met.mem_seen_addAll, List.exists_mem_cons_iff,
        leads_iff_of_ok hr]
      tauto
    · rw [ih.mem_found, List.mem_append, List.exists_mem_cons_iff, lies_iff_of_ok hr, or_assoc]

theorem covers_start (start : List α) : Covers step start 0 (Walk.start start) := by
  have hm : ∀ a, a ∈ (Met.addAll ⟨[], []⟩ start).seen ↔ a ∈ start := fun a => by
    simp [Met.mem_seen_addAll]
  have hf : ∀ a, a ∈ (Met.addAll ⟨[], []⟩ start).fresh ↔ a ∈ start := fun a => by
    simp [Met.mem_fresh_addAll]
  refine ⟨Met.nodup_addAll List.nodup_nil, fun a => ?_, fun a ha => ?_, fun a ha hna => ?_,
    fun a ha hna => ?_, fun x => ?_⟩
  · refine (hm a).trans ⟨.start, fun h => ?_⟩
    cases h with
    | start h => exact h
  · exact (hm a).2 ((hf a).1 ha)
  · exact absurd ((hf a).2 ((hm a).1 ha)) hna
  · exact absurd ((hf a).2 ((hm a).1 ha)) hna
  · simp only [Walk.start, List.not_mem_nil, false_iff, not_exists, not_and]
    exact fun a ha hna => absurd ((hf a).2 ((hm a).1 ha)) hna

theorem Covers.round {start : List α} {n : ℕ} {w : Walk α β} (hw : Covers step start n w)
    {m : Met α} {found : List β} (hv : Visited step w.frontier ⟨w.seen, []⟩ m w.found found) :
    Covers step start (n + 1) ⟨m.seen, m.fresh, found⟩ := by
  -- a node that is neither fresh nor of the old frontier was visited before
  have old : ∀ a ∈ m.seen, a ∉ m.fresh → a ∈ w.seen := by
    intro a ha hna
    by_contra hns
    rcases (hv.mem_seen a).1 ha with h | h
    · exact hns h
    · exact hna ((hv.mem_fresh a).2 (.inr ⟨hns, h⟩))
  have kept : ∀ a ∈ w.seen, a ∈ m.seen ∧ a ∉ m.fresh := by
    intro a ha
    refine ⟨(hv.mem_seen a).2 (.inl ha), fun hf => ?_⟩
    rcases (hv.mem_fresh a).1 hf with h | ⟨h, -⟩
    · cases h
    · exact h ha
  refine ⟨hv.nodup hw.nodup, fun a => ?_, fun a ha => ?_, fun a ha hna => ?_,
    fun a ha hna b hab => ?_, fun x => ?_⟩
  · constructor
    · intro ha
      rcases (hv.mem_seen a).1 ha with h | ⟨b, hb, hba⟩
      · exact ((hw.mem_seen a).1 h).later
      · exact ((hw.mem_seen b).1 (hw.frontier_subset b hb)).next hba
    · intro ha
      cases ha with
      | later h => exact (hv.mem_seen a).2 (.inl ((hw.mem_seen a).2 h))
      | @next _ b _ hb hba =>
        have hbs := (hw.mem_seen b).2 hb
        by_cases hbf : b ∈ w.frontier
        · exact (hv.mem_seen a).2 (.inr ⟨b, hbf, hba⟩)
        · exact (hv.mem_seen a).2 (.inl (hw.next_subset b hbs hbf a hba))
  · rcases (hv.mem_fresh a).1 ha with h | ⟨-, h⟩
    · cases h
    · exact (hv.mem_seen a).2 (.inr h)
  · by_cases haf : a ∈ w.frontier
    · exact hv.ok a haf
    · exact hw.visited a (old a ha hna) haf
  · by_cases haf : a ∈ w.frontier
    · exact (hv.mem_seen b).2 (.inr ⟨a, haf, hab⟩)
    · exact (hv.mem_seen b).2 (.inl (hw.next_subset a (old a ha hna) haf b hab))
  · rw [hv.mem_found, hw.mem_found]
    constructor
    · rintro (⟨a, ha, -, hax⟩ | ⟨a, ha, hax⟩)
      · exact ⟨a, (kept a ha).1, (kept a ha).2, hax⟩
      · have hs := kept a (hw.frontier_subset a ha)
        exact ⟨a, hs.1, hs.2, hax⟩
    · rintro ⟨a, ha, hna, hax⟩
      by_cases haf : a ∈ w.frontier
      · exact .inr ⟨a, haf, hax⟩
      · exact .inl ⟨a, old a ha hna, haf, hax⟩

/-! ### All rounds -/

theorem Covers.rounds {start : List α} {n : ℕ} {w w' : Walk α β} (hw : Covers step start n w)
    (k : ℕ) (h : (Walk.rounds step k w).outcome = .ok w') : Covers step start (n + k) w' := by
  induction k generalizing n w with
  | zero =>
    cases h
    exact hw
  | succ k ih =>
    unfold Walk.rounds at h
    split at h
    · rename_i hf
      cases h
      exact hw.stay (List.isEmpty_iff.1 hf) (k + 1)
    · obtain ⟨⟨m, found⟩, hvisit, hrest⟩ := Run.outcome_bind_eq_ok.1 h
      have := ih (hw.round (visited_of_visit hvisit)) hrest
      rwa [Nat.add_assoc, Nat.add_comm 1 k] at this

/-- **A walk meets exactly the nodes within its number of rounds.** -/
theorem covers_rounds {start : List α} {n : ℕ} {w : Walk α β}
    (h : (Walk.rounds step n (Walk.start start)).outcome = .ok w) : Covers step start n w := by
  simpa using (covers_start start).rounds n h

theorem exists_ok_visit (hok : ∀ a, ∃ r, (step a).outcome = .ok r) (as : List α) (m : Met α)
    (found : List β) : ∃ r, (visit step as m found).outcome = .ok r := by
  induction as generalizing m found with
  | nil => exact ⟨_, rfl⟩
  | cons a as ih =>
    obtain ⟨r, hr⟩ := hok a
    obtain ⟨r', hr'⟩ := ih (m.addAll r.2) (found ++ r.1)
    exact ⟨r', Run.outcome_bind_eq_ok.2 ⟨r, hr, hr'⟩⟩

/-- A walk whose steps succeed succeeds. -/
theorem exists_ok_rounds (hok : ∀ a, ∃ r, (step a).outcome = .ok r) (n : ℕ) (w : Walk α β) :
    ∃ w', (Walk.rounds step n w).outcome = .ok w' := by
  induction n generalizing w with
  | zero => exact ⟨w, rfl⟩
  | succ n ih =>
    unfold Walk.rounds
    split
    · exact ⟨w, rfl⟩
    · obtain ⟨⟨m, found⟩, hv⟩ := exists_ok_visit hok w.frontier ⟨w.seen, []⟩ w.found
      obtain ⟨w', hw'⟩ := ih ⟨m.seen, m.fresh, found⟩
      exact ⟨w', Run.outcome_bind_eq_ok.2 ⟨_, hv, hw'⟩⟩

/-! ### Walks that come to an end -/

/-- In every round that leaves something to visit, some node is met. -/
theorem frontier_eq_nil_or_length_le {n : ℕ} {w w' : Walk α β}
    (h : (Walk.rounds step n w).outcome = .ok w') :
    w'.frontier = [] ∨ w.seen.length + n ≤ w'.seen.length := by
  -- each round that does not end the walk meets a node
  induction n generalizing w with
  | zero =>
    cases h
    exact .inr (Nat.le_refl _)
  | succ n ih =>
    unfold Walk.rounds at h
    split at h
    · rename_i hf
      cases h
      exact .inl (List.isEmpty_iff.1 hf)
    · obtain ⟨⟨m, found⟩, hvisit, hrest⟩ := Run.outcome_bind_eq_ok.1 h
      have hlen := (visited_of_visit hvisit).length
      simp only [List.length_nil, Nat.add_zero] at hlen
      rcases ih hrest with hf | hle
      · exact .inl hf
      · by_cases hm : m.fresh = []
        · -- the next round finds nothing to visit
          have : w' = ⟨m.seen, m.fresh, found⟩ := by
            cases n <;> simp [Walk.rounds, hm] at hrest <;> simp [hm, ← hrest]
          exact .inl (by rw [this, hm])
        · have : 0 < m.fresh.length := List.length_pos_of_ne_nil hm
          simp only at hle
          exact .inr (by omega)

theorem rounds_of_frontier_eq_nil {w : Walk α β} (h : w.frontier = []) (n : ℕ) :
    rounds step n w = pure w := by
  cases n with
  | zero => rfl
  | succ n => simp [rounds, h]

theorem rounds_of_le {n m : ℕ} (hnm : n ≤ m) {w : Walk α β}
    (h : ∀ w', (rounds step n w).outcome = .ok w' → w'.frontier = []) :
    rounds step m w = rounds step n w := by
  induction n generalizing m w with
  | zero => exact rounds_of_frontier_eq_nil (h w rfl) m
  | succ n ih =>
    obtain ⟨m, rfl⟩ : ∃ k, m = k + 1 := ⟨m - 1, by omega⟩
    unfold rounds at h ⊢
    split
    · rfl
    · rename_i hempty
      rw [if_neg hempty] at h
      refine Run.bind_congr_of_ok fun r hr => ?_
      exact ih (Nat.le_of_succ_le_succ hnm) fun w' hw' =>
        h w' ((Run.outcome_bind_of_ok hr _).trans hw')

/-- **A walk from one node ends** when it has more rounds than there are nodes to lead to. -/
theorem frontier_eq_nil {a : α} {bound : List α} {w : Walk α β}
    (hbound : ∀ b c, Leads step b c → c ∈ bound)
    (h : (Walk.rounds step (bound.length + 1) (Walk.start [a])).outcome = .ok w) :
    w.frontier = [] := by
  rcases frontier_eq_nil_or_length_le h with hf | hle
  · exact hf
  · have hw := covers_rounds h
    -- the nodes that are met are distinct and among `a :: bound`, so rounds must end
    have hsub : w.seen ⊆ a :: bound := by
      intro b hb
      obtain ⟨s, hs, hr⟩ := ((hw.mem_seen b).1 hb).exists_reachable
      rcases hr.cases_tail with rfl | ⟨c, -, hcb⟩
      · exact List.mem_cons.2 (.inl (List.mem_singleton.1 hs))
      · exact List.mem_cons_of_mem a (hbound c b hcb)
    have hlen := (List.subperm_of_subset hw.nodup hsub).length_le
    have hstart : (Walk.start [a] : Walk α β).seen.length = 1 := by
      simp [Walk.start, Met.addAll, Met.add]
    rw [List.length_cons] at hlen
    omega

end Walk

end RecordAccess
