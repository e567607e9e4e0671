import RecordAccess.Proofs.Walks

/-!
# Loops without a bound

Walks and chains are taken with a number of rounds or steps given beforehand.  `Run.Loops` says what
it is to go on turn after turn for as long as it takes, with no such number.  A loop ends whenever
each of its turns makes something smaller (`Run.exists_loops`).

A walk that takes its nodes one by one from a queue (`Walk.queueTurn`) visits a node less with each
turn, so it ends, and it does what the walk does that goes round by round (`Walk.loops_queueTurn`).
-/

namespace RecordAccess

variable {σ α β : Type}

/-! ### Turns -/

/-- What a turn of a loop comes to. -/
inductive Turn (σ α : Type)
  /-- The loop takes its next turn from a state. -/
  | again (s : σ)
  /-- The loop ends with a value. -/
  | left (a : α)

/-- Goes on after a turn. -/
def Turn.next (f : σ → Run α) : Turn σ α → Run α
  | again s => f s
  | left a => pure a

namespace Run

/-- A loop that begins in a state ends after so many turns, and has then done what a run did.
There is no bound on the turns. -/
inductive Loops (body : σ → Run (Turn σ α)) : ℕ → σ → Run α → Prop
  | failed {s : σ} {error : AccessError} (h : (body s).outcome = .error error) :
    Loops body 1 s (body s >>= fun _ => Run.failed error)
  | left {s : σ} {a : α} (h : (body s).outcome = .ok (.left a)) :
    Loops body 1 s (body s >>= fun _ => Pure.pure a)
  | again {s s' : σ} {k : ℕ} {r : Run α} (h : (body s).outcome = .ok (.again s'))
    (hrest : Loops body k s' r) : Loops body (k + 1) s (body s >>= fun _ => r)

variable {body : σ → Run (Turn σ α)}

/-- What takes as many turns as it is told does what the loop does, if it is told enough. -/
theorem Loops.eq_of_le {f : ℕ → σ → Run α} (hf : ∀ n s, f (n + 1) s = body s >>= Turn.next (f n))
    {k : ℕ} {s : σ} {r : Run α} (h : Loops body k s r) {n : ℕ} (hn : k ≤ n) : f n s = r := by
  -- the number of turns goes down with the turns that are taken
  induction h generalizing n with
  | failed h =>
    obtain ⟨n, rfl⟩ : ∃ m, n = m + 1 := ⟨n - 1, by omega⟩
    rw [hf]
    exact bind_congr_of_ok fun t ht => by
      rw [h] at ht
      cases ht
  | left h =>
    obtain ⟨n, rfl⟩ : ∃ m, n = m + 1 := ⟨n - 1, by omega⟩
    rw [hf]
    exact bind_congr_of_ok fun t ht => by
      rw [h] at ht
      cases ht
      rfl
  | again h _ ih =>
    obtain ⟨n, rfl⟩ : ∃ m, n = m + 1 := ⟨n - 1, by omega⟩
    rw [hf]
    exact bind_congr_of_ok fun t ht => by
      rw [h] at ht
      cases ht
      exact ih (by omega)

/-- What goes on after a turn as after the beginning does what the loop does. -/
theorem Loops.eq_of_unrolls {f : σ → Run α} (hf : ∀ s, f s = body s >>= Turn.next f) {k : ℕ}
    {s : σ} {r : Run α} (h : Loops body k s r) : f s = r := by
  have hsame : ∀ _ : ℕ, ∀ s, f s = body s >>= Turn.next f := fun _ => hf
  exact @Loops.eq_of_le _ _ _ (fun _ => f) hsame _ _ _ h k (Nat.le_refl k)

/-- **A loop ends** when each turn that goes on makes a measure smaller; it has at most one turn
more than the measure at the beginning. -/
theorem exists_loops {inv : σ → Prop} {measure : σ → ℕ}
    (hagain : ∀ s s', inv s → (body s).outcome = .ok (.again s') →
      inv s' ∧ measure s' < measure s) {s : σ} (hs : inv s) :
    ∃ k ≤ measure s + 1, ∃ r, Loops body k s r := by
  induction hm : measure s using Nat.strongRecOn generalizing s with
  | ind m ih =>
    subst hm
    cases hbody : (body s).outcome with
    | error error => exact ⟨1, by omega, _, .failed hbody⟩
    | ok t =>
      cases t with
      | left a => exact ⟨1, by omega, _, .left hbody⟩
      | again s' =>
        obtain ⟨hs', hlt⟩ := hagain s s' hs hbody
        obtain ⟨k, hk, r, hr⟩ := ih (measure s') hlt hs' rfl
        exact ⟨k + 1, by omega, _, .again hbody hr⟩

end Run

/-! ### Queues -/

namespace Met

variable [DecidableEq α]

theorem addAll_append (seen fresh fresh' : List α) (as : List α) :
    addAll ⟨seen, fresh ++ fresh'⟩ as =
      ⟨(addAll ⟨seen, fresh'⟩ as).seen, fresh ++ (addAll ⟨seen, fresh'⟩ as).fresh⟩ := by
  induction as generalizing seen fresh' with
  | nil => rfl
  | cons a as ih =>
    by_cases ha : a ∈ seen
    · simpa [addAll, add, ha] using ih seen fresh'
    · simpa [addAll, add, ha] using ih (seen ++ [a]) (fresh' ++ [a])

end Met

namespace Walk

variable [DecidableEq α] {step : α → Run (List β × List α)}

/-- Visits the node in front of a queue and puts those it meets behind the others. -/
def queueTurn (step : α → Run (List β × List α)) (w : Walk α β) :
    Run (Turn (Walk α β) (Walk α β)) :=
  match w.frontier with
  | [] => pure (.left w)
  | a :: rest => do
    let (here, next) ← step a
    let m := Met.addAll ⟨w.seen, rest⟩ next
    pure (.again ⟨m.seen, m.fresh, w.found ++ here⟩)

/-- The nodes among so many that a walk has not visited. -/
def unvisited (bound : List α) (w : Walk α β) : ℕ :=
  bound.length - w.seen.length + w.frontier.length

/-- A walk has met no node twice, and only such as it is bound to. -/
structure StaysIn (bound : List α) (w : Walk α β) : Prop where
  nodup : w.seen.Nodup
  subset : w.seen ⊆ bound

theorem staysIn_start {bound start : List α} (h : start ⊆ bound) :
    (Walk.start start : Walk α β).StaysIn bound := by
  refine ⟨Met.nodup_addAll List.nodup_nil, fun a ha => h ?_⟩
  simpa [Walk.start, Met.mem_seen_addAll] using ha

omit [DecidableEq α] in
theorem StaysIn.length_le {bound : List α} {w : Walk α β} (h : w.StaysIn bound) :
    w.seen.length ≤ bound.length :=
  (List.subperm_of_subset h.nodup h.subset).length_le

theorem unvisited_start {bound start : List α} (h : start ⊆ bound) :
    unvisited bound (Walk.start start : Walk α β) = bound.length := by
  have hle := (staysIn_start (β := β) h).length_le
  have hlen := Met.length_addAll ⟨[], []⟩ start
  simp only [List.length_nil, Nat.add_zero, Nat.zero_add] at hlen
  simp only [unvisited, Walk.start] at hle ⊢
  omega

theorem StaysIn.queueTurn {bound : List α} (hbound : ∀ a b, Leads step a b → b ∈ bound)
    {w w' : Walk α β} (hw : w.StaysIn bound)
    (h : (queueTurn step w).outcome = .ok (.again w')) :
    w'.StaysIn bound ∧ unvisited bound w' < unvisited bound w := by
  unfold Walk.queueTurn at h
  split at h
  · cases h
  · rename_i a rest hfrontier
    obtain ⟨⟨here, next⟩, hstep, heq⟩ := Run.outcome_bind_eq_ok.1 h
    cases heq
    obtain ⟨added, hs, hf, hn, hm⟩ := Met.exists_addAll next ⟨w.seen, rest⟩
    dsimp only at hs hf hn hm ⊢
    have hw' : StaysIn bound (⟨w.seen ++ added, rest ++ added, w.found ++ here⟩ : Walk α β) := by
      refine ⟨hn hw.nodup, List.append_subset.2 ⟨hw.subset, fun b hb => ?_⟩⟩
      exact hbound a b ((leads_iff_of_ok hstep).2 ((hm b).1 hb).2)
    -- what is met gets longer by the new nodes, the queue by one less
    have hle := hw'.length_le
    rw [hs, hf]
    refine ⟨hw', ?_⟩
    simp only [unvisited, hfrontier, List.length_append, List.length_cons] at hle ⊢
    omega

theorem StaysIn.visit {bound : List α} (hbound : ∀ a b, Leads step a b → b ∈ bound) {w : Walk α β}
    (hw : w.StaysIn bound) (hfrontier : w.frontier ≠ []) {m : Met α} {found : List β}
    (h : (visit step w.frontier ⟨w.seen, []⟩ w.found).outcome = .ok (m, found)) :
    StaysIn bound (⟨m.seen, m.fresh, found⟩ : Walk α β) ∧
      unvisited bound ⟨m.seen, m.fresh, found⟩ < unvisited bound w := by
  have hv := visited_of_visit h
  have hw' : StaysIn bound (⟨m.seen, m.fresh, found⟩ : Walk α β) := by
    refine ⟨hv.nodup hw.nodup, fun b hb => ?_⟩
    rcases (hv.mem_seen b).1 hb with hb | ⟨a, -, hab⟩
    · exact hw.subset hb
    · exact hbound a b hab
  refine ⟨hw', ?_⟩
  -- a round leaves to visit what it met, and visits all that was left
  have hle := hw'.length_le
  have hlen := hv.length
  have hpos := List.length_pos_of_ne_nil hfrontier
  simp only [List.length_nil, Nat.add_zero] at hlen
  simp only [unvisited] at hle ⊢
  omega

/-! ### Queues and rounds -/

theorem queueTurn_of_nil {w : Walk α β} (h : w.frontier = []) :
    queueTurn step w = pure (.left w) := by
  simp [queueTurn, h]

theorem queueTurn_of_cons {w : Walk α β} {a : α} {rest : List α} (h : w.frontier = a :: rest) :
    queueTurn step w = step a >>= fun x =>
      let m := Met.addAll ⟨w.seen, rest⟩ x.2
      pure (.again ⟨m.seen, m.fresh, w.found ++ x.1⟩) := by
  simp only [queueTurn, h]

/-- What is left of a round, with so many rounds after it. -/
def restOfRound (step : α → Run (List β × List α)) (n : ℕ) (seen : List α) (as fresh : List α)
    (found : List β) : Run (Walk α β) :=
  visit step as ⟨seen, fresh⟩ found >>= fun x => rounds step n ⟨x.1.seen, x.1.fresh, x.2⟩

theorem rounds_succ (n : ℕ) (w : Walk α β) :
    rounds step (n + 1) w = restOfRound step n w.seen w.frontier [] w.found := by
  by_cases h : w.frontier = []
  · rw [rounds_of_frontier_eq_nil h, restOfRound, h, visit, Run.pure_bind,
      rounds_of_frontier_eq_nil rfl]
    simp [← h]
  · rw [rounds, if_neg (by simpa using h)]
    rfl

theorem restOfRound_nil (n : ℕ) (seen fresh : List α) (found : List β) :
    restOfRound step (n + 1) seen [] fresh found = restOfRound step n seen fresh [] found := by
  rw [restOfRound, visit, Run.pure_bind, rounds_succ]

theorem restOfRound_cons (n : ℕ) (seen : List α) (a : α) (as fresh : List α) (found : List β) :
    restOfRound step n seen (a :: as) fresh found = step a >>= fun x =>
      let m := Met.addAll ⟨seen, fresh⟩ x.2
      restOfRound step n m.seen as m.fresh (found ++ x.1) := by
  rw [restOfRound, visit, Run.bind_assoc]
  rfl

/-- To do what is left of a round it is enough to know what to do with a node in front. -/
theorem restOfRound_eq {k : ℕ} (hk : 1 ≤ k) {w : Walk α β} {r : Run (Walk α β)}
    (hnil : w.frontier = [] → r = pure w)
    (hcons : ∀ a rest fresh n, w.frontier = a :: (rest ++ fresh) → k ≤ n + 1 →
      restOfRound step n w.seen (a :: rest) fresh w.found = r)
    {as fresh : List α} (hfrontier : w.frontier = as ++ fresh) {n : ℕ} (hn : k ≤ n) :
    restOfRound step n w.seen as fresh w.found = r := by
  cases as with
  | cons a rest => exact hcons a rest fresh n hfrontier (by omega)
  | nil =>
    obtain ⟨n, rfl⟩ : ∃ m, n = m + 1 := ⟨n - 1, by omega⟩
    rw [restOfRound_nil]
    cases fresh with
    | nil =>
      rw [hnil hfrontier, restOfRound, visit, Run.pure_bind, rounds_of_frontier_eq_nil rfl]
      have hw : w.frontier = [] := hfrontier
      simp [← hw]
    | cons a rest => exact hcons a rest [] n (by simpa using hfrontier) hn

/-- A queue that begins with the rest of a round does what the rest of the round and the next
rounds do. -/
theorem restOfRound_of_loops {k : ℕ} {w : Walk α β} {r : Run (Walk α β)}
    (h : Run.Loops (queueTurn step) k w r) {as fresh : List α}
    (hfrontier : w.frontier = as ++ fresh) {n : ℕ} (hn : k ≤ n) :
    restOfRound step n w.seen as fresh w.found = r := by
  -- the queue is what is left of the round, and behind it what the round has met so far
  induction h generalizing as fresh n with
  | @failed w error h =>
    refine restOfRound_eq (Nat.le_refl 1) (fun hw => ?_) (fun a rest fresh n hw _ => ?_)
      hfrontier hn
    · rw [queueTurn_of_nil hw] at h
      cases h
    · rw [queueTurn_of_cons hw] at h ⊢
      rw [restOfRound_cons, Run.bind_assoc]
      refine Run.bind_congr_of_ok fun x hx => ?_
      rw [Run.outcome_bind_of_ok hx] at h
      cases h
  | @left w w' h =>
    refine restOfRound_eq (Nat.le_refl 1) (fun hw => ?_) (fun a rest fresh n hw _ => ?_)
      hfrontier hn
    · rw [queueTurn_of_nil hw] at h ⊢
      cases h
      rfl
    · rw [queueTurn_of_cons hw] at h
      obtain ⟨x, -, heq⟩ := Run.outcome_bind_eq_ok.1 h
      cases heq
  | @again w w' k r h _ ih =>
    refine restOfRound_eq (Nat.le_add_left 1 k) (fun hw => ?_) (fun a rest fresh n hw hn => ?_)
      hfrontier hn
    · rw [queueTurn_of_nil hw] at h
      cases h
    · rw [queueTurn_of_cons hw] at h ⊢
      rw [restOfRound_cons, Run.bind_assoc]
      refine Run.bind_congr_of_ok fun x hx => ?_
      rw [Run.outcome_bind_of_ok hx] at h
      cases h
      -- the rest of the round is still in front of what was met
      have hmet := Met.addAll_append w.seen rest fresh x.2
      have hfresh : (Met.addAll ⟨w.seen, rest ++ fresh⟩ x.2).fresh =
          rest ++ (Met.addAll ⟨w.seen, fresh⟩ x.2).fresh := congrArg Met.fresh hmet
      have hih := ih hfresh (Nat.le_of_succ_le_succ hn)
      rw [congrArg Met.seen hmet] at hih
      exact hih

/-- **A walk by a queue ends, and does what a walk by rounds does.**  From one node it takes at
most one turn more than there are nodes to lead to, and one to find nothing more to visit. -/
theorem loops_queueTurn {bound bound' : List α} (hbound : ∀ a b, Leads step a b → b ∈ bound)
    (hbound' : ∀ a b, Leads step a b → b ∈ bound') (a : α) :
    ∃ k ≤ bound.length + 2, Run.Loops (queueTurn step) k (Walk.start [a])
      (rounds step (bound'.length + 1) (Walk.start [a])) := by
  have hstart : [a] ⊆ a :: bound := by simp
  obtain ⟨k, hk, r, hr⟩ := Run.exists_loops
    (fun w w' hw h => StaysIn.queueTurn (fun b c hbc => List.mem_cons_of_mem a (hbound b c hbc))
      hw h)
    (staysIn_start (β := β) hstart)
  rw [unvisited_start hstart, List.length_cons] at hk
  refine ⟨k, hk, ?_⟩
  -- with more rounds than either needs, the walk is the loop
  have hlong : rounds step (max k (bound'.length + 1)) (Walk.start [a]) = r := by
    rw [← restOfRound_of_loops hr (List.nil_append _).symm (Nat.le_max_left k (bound'.length + 1))]
    rw [restOfRound, visit, Run.pure_bind]
  rwa [← hlong, rounds_of_le (Nat.le_max_right _ _) fun w => frontier_eq_nil hbound'] at hr

end Walk

end RecordAccess
