import Mathlib.Data.Set.Card
import RecordAccess.Proofs.Loops
import RecordAccess.Proofs.Managers
import RecordAccess.Proofs.Truncation

/-!
# Traversals end and repeat nothing

The engine goes up and down the groups, up the managers of an owner and down the reports of a
manager.  None of these four loops is bounded by what it is given: the depth of nesting may be any
number, and the others have none.  Over finitely many memberships and users all of them end, with a
number of turns that depends on these only, and none asks a question twice
(`Engine.traversals_end_and_repeat_nothing`).
-/

namespace RecordAccess

/-! ### Finite bounds -/

theorem MembershipGraph.exists_bound {G : MembershipGraph} (hG : G.Finite)
    (f : Membership → GroupId) : ∃ bound : List GroupId, bound.length = G.ncard ∧
      ∀ m ∈ G, f m ∈ bound := by
  refine ⟨hG.toFinset.toList.map f, ?_, fun m hm => ?_⟩
  · rw [List.length_map, Finset.length_toList, Set.ncard_eq_toFinset_card G hG]
  · exact List.mem_map_of_mem (by simpa using hm)

theorem Run.calls_bind_of_quiet {α β : Type} {r : Run α} {f : α → Run β}
    (hf : ∀ a, (f a).calls = []) : (r >>= f).calls = r.calls := by
  cases h : r.outcome with
  | error error => rw [calls_bind_of_error h]
  | ok a => rw [calls_bind_of_ok h, hf, List.append_nil]

namespace Engine

variable {e : Engine} {G : MembershipGraph}

theorem calls_ask (e : Engine) (c : Query) : (e.ask c).calls = [c] := by
  rw [ask, Providers.call, Run.calls_bind_of_ok (Run.outcome_emit _), e.providers.calls_ask]
  rfl

theorem calls_ask_bind {α : Type} (e : Engine) (c : Query) {f : c.Answer → Run α}
    (hf : ∀ a, (f a).calls = []) : (e.ask c >>= f).calls = [c] := by
  rw [Run.calls_bind_of_quiet hf, calls_ask]

/-! ### Up the groups -/

/-- A turn of the loop that goes up from a user: it stops where there is nothing left to follow or
the depth is reached, and goes on one step further otherwise. -/
def upwardTurn (e : Engine) (user : UserId) (s : ℕ × Walk GroupId Unit) :
    Run (Turn (ℕ × Walk GroupId Unit) (List GroupId)) :=
  if s.2.frontier.isEmpty then pure (.left (sortedGroups s.2.seen))
  else if e.settings.maxGroupDepth ≤ s.1 then do
    Run.log (.depthReached user e.settings.maxGroupDepth s.2.frontier.length)
    Run.count .depthTruncation
    pure (.left (sortedGroups s.2.seen))
  else do
    let (m, found) ← Walk.visit e.parentStep s.2.frontier ⟨s.2.seen, []⟩ s.2.found
    pure (.again (s.1 + 1, ⟨m.seen, m.fresh, found⟩))

/-- What the walk up still does from a depth on. -/
def upwardFrom (e : Engine) (user : UserId) (s : ℕ × Walk GroupId Unit) : Run (List GroupId) :=
  Walk.rounds e.parentStep (e.settings.maxGroupDepth - s.1) s.2 >>= e.upwardEnd user

theorem upwardFrom_unrolls (user : UserId) (s : ℕ × Walk GroupId Unit) :
    e.upwardFrom user s = e.upwardTurn user s >>= Turn.next (e.upwardFrom user) := by
  -- the loop leaves where the rounds are over, at the depth or before
  unfold upwardTurn
  split
  · rename_i hempty
    rw [upwardFrom, Walk.rounds_of_frontier_eq_nil (List.isEmpty_iff.1 hempty), Run.pure_bind,
      Run.pure_bind, upwardEnd, if_pos hempty]
    rfl
  · rename_i hempty
    split
    · rename_i hdepth
      rw [upwardFrom, Nat.sub_eq_zero_of_le hdepth, Walk.rounds, Run.pure_bind, upwardEnd,
        if_neg hempty]
      rfl
    · rename_i hdepth
      obtain ⟨n, hn⟩ : ∃ n, e.settings.maxGroupDepth - s.1 = n + 1 :=
        ⟨e.settings.maxGroupDepth - s.1 - 1, by omega⟩
      have hn' : e.settings.maxGroupDepth - (s.1 + 1) = n := by omega
      rw [upwardFrom, hn, Walk.rounds, if_neg hempty, Run.bind_assoc, Run.bind_assoc]
      simp only [Run.pure_bind, Turn.next, upwardFrom, hn']

/-- The loop up from some groups ends, whatever the depth is. -/
theorem loops_upwardTurn {bound direct : List GroupId}
    (hbound : ∀ g parent, Walk.Leads e.parentStep g parent → parent ∈ bound)
    (hdirect : direct ⊆ bound) (user : UserId) :
    ∃ k ≤ bound.length + 1, Run.Loops (e.upwardTurn user) k (0, .start direct)
      (e.upwardFrom user (0, .start direct)) := by
  -- the depth need not come into it: each turn visits groups that were not visited
  have hagain : ∀ s s' : ℕ × Walk GroupId Unit, s.2.StaysIn bound →
      (e.upwardTurn user s).outcome = .ok (.again s') →
      s'.2.StaysIn bound ∧ Walk.unvisited bound s'.2 < Walk.unvisited bound s.2 := by
    intro s s' hs h
    unfold upwardTurn at h
    split at h
    · cases h
    · rename_i hempty
      split at h
      · cases h
      · obtain ⟨⟨m, found⟩, hvisit, heq⟩ := Run.outcome_bind_eq_ok.1 h
        cases heq
        exact hs.visit hbound (by simpa using hempty) hvisit
  have hstart : (Walk.start direct : Walk GroupId Unit).StaysIn bound :=
    Walk.staysIn_start hdirect
  obtain ⟨k, hk, r, hr⟩ := Run.exists_loops hagain (s := (0, Walk.start direct)) hstart
  rw [Walk.unvisited_start hdirect] at hk
  refine ⟨k, hk, ?_⟩
  rwa [← hr.eq_of_unrolls (upwardFrom_unrolls user)] at hr

theorem asks_parentStep (e : Engine) : Walk.Asks e.parentStep fun g => [.parentGroups g] := by
  have hcalls : ∀ g, (e.parentStep g).calls = [.parentGroups g] := fun g =>
    calls_ask_bind e _ fun _ => rfl
  exact ⟨fun g => hcalls g ▸ List.prefix_refl _, fun g _ _ => hcalls g⟩

theorem calls_effectiveGroups {direct : List GroupId} {user : UserId}
    (hdirect : (e.ask (.directGroups user)).outcome = .ok direct) :
    (e.effectiveGroups user).calls = .directGroups user ::
      (Walk.rounds e.parentStep e.settings.maxGroupDepth (.start direct)).calls := by
  rw [effectiveGroups_eq, Run.calls_bind_of_ok (Run.outcome_count _),
    Run.calls_bind_of_ok hdirect, calls_ask,
    Run.calls_bind_of_quiet fun w => calls_upwardEnd user w]
  rfl

/-- Nothing is asked twice on the way up, whatever the providers answer. -/
theorem nodup_calls_effectiveGroups (e : Engine) (user : UserId) :
    (e.effectiveGroups user).calls.Nodup := by
  cases hdirect : (e.ask (.directGroups user)).outcome with
  | error error =>
    rw [effectiveGroups, Run.calls_bind_of_ok (Run.outcome_count _),
      Run.calls_bind_of_error hdirect, calls_ask]
    exact List.nodup_singleton _
  | ok direct =>
    rw [calls_effectiveGroups hdirect]
    obtain ⟨visits, -, hbegun, -⟩ :=
      e.asks_parentStep.exists_visits e.settings.maxGroupDepth direct
    refine List.nodup_cons.2 ⟨fun hmem => ?_, e.asks_parentStep.nodup_calls (by simp) (by simp) _ _⟩
    simpa using hbegun.subset hmem

/-- Over a finite graph the walk up ends within one turn for each membership, and one more.  It
asks for the parents of the groups that are nearer to the user than the depth, once each. -/
theorem ListsParents.effectiveGroups_ends (h : e.ListsParents G) (hG : G.Finite) (user : UserId) :
    ∃ direct, ∃ visits : List GroupId, (e.ask (.directGroups user)).outcome = .ok direct ∧
      (∃ k ≤ G.ncard + 1, ∃ r, Run.Loops (e.upwardTurn user) k (0, .start direct) r ∧
        e.effectiveGroups user = do
          Run.count (.groupResolution "up")
          let _ ← e.ask (.directGroups user)
          r) ∧
      (e.effectiveGroups user).calls = .directGroups user :: visits.map .parentGroups ∧
      visits.Nodup ∧
      ∀ g, g ∈ visits ↔ ∃ n < e.settings.maxGroupDepth, IsLeast {n | G.Above user n g} n := by
  obtain ⟨direct, hdirect, hmem⟩ := h.direct user
  obtain ⟨bound, hlength, hbound⟩ := MembershipGraph.exists_bound hG (·.group)
  -- all groups that are met are among those the graph names
  have hleads : ∀ g parent, Walk.Leads e.parentStep g parent → parent ∈ bound :=
    fun g parent hp => hbound _ (h.leads_parentStep.1 hp)
  have hsub : direct ⊆ bound := fun g hg => hbound _ ((hmem g).1 hg)
  obtain ⟨k, hk, hloops⟩ := loops_upwardTurn hleads hsub user
  obtain ⟨w, hw⟩ := Walk.exists_ok_rounds
    (fun g => (h.exists_parentStep g).imp fun _ hr => hr.1)
    e.settings.maxGroupDepth (Walk.start direct)
  obtain ⟨visits, hnodup, -, hok⟩ :=
    e.asks_parentStep.exists_visits e.settings.maxGroupDepth direct
  obtain ⟨hcalls, -, hvisits⟩ := hok w hw
  refine ⟨direct, visits, hdirect, ⟨k, hlength ▸ hk, _, hloops, ?_⟩, ?_, hnodup, fun g => ?_⟩
  · refine Run.bind_congr_of_ok fun _ _ => Run.bind_congr_of_ok fun direct' hdirect' => ?_
    cases hdirect.symm.trans hdirect'
    rfl
  · rw [calls_effectiveGroups hdirect, hcalls, ← List.map_eq_flatMap]
  · rw [hvisits]
    simp only [h.within_iff_above hmem, MembershipGraph.exists_above_iff_isLeast]
    constructor
    · rintro ⟨k, hk, n, hn, hleast⟩
      exact ⟨n, lt_of_le_of_lt hn hk, hleast⟩
    · rintro ⟨n, hn, hleast⟩
      exact ⟨n, hn, n, le_rfl, hleast⟩

/-! ### Down the groups -/

theorem asks_memberStep (e : Engine) :
    Walk.Asks e.memberStep fun g => [.directUsers g, .childGroups g] := by
  have hrest : ∀ (g : GroupId) (users : List UserId),
      (e.ask (.childGroups g) >>= fun children => (pure (users, children) : Run _)).calls =
        [.childGroups g] := fun g users => calls_ask_bind e _ fun _ => rfl
  refine ⟨fun g => ?_, fun g r h => ?_⟩
  · cases hu : (e.ask (.directUsers g)).outcome with
    | error error =>
      rw [memberStep, Run.calls_bind_of_error hu, calls_ask]
      exact List.prefix_append [_] _
    | ok users =>
      rw [memberStep, Run.calls_bind_of_ok hu, calls_ask, hrest]
      exact List.prefix_refl _
  · obtain ⟨users, hu, -⟩ := Run.outcome_bind_eq_ok.1 h
    rw [memberStep, Run.calls_bind_of_ok hu, calls_ask, hrest]
    rfl

theorem calls_effectiveUsers (e : Engine) (g : GroupId) :
    (e.effectiveUsers g).calls =
      (Walk.rounds e.memberStep (e.providers.nestedGroups.length + 1) (.start [g])).calls := by
  rw [effectiveUsers, Run.calls_bind_of_ok (Run.outcome_count _),
    Run.calls_bind_of_quiet fun w => Run.calls_pure _]
  rfl

/-- Nothing is asked twice on the way down, whatever the providers answer. -/
theorem nodup_calls_effectiveUsers (e : Engine) (g : GroupId) :
    (e.effectiveUsers g).calls.Nodup := by
  rw [calls_effectiveUsers]
  exact e.asks_memberStep.nodup_calls (by simp) (by simp +contextual) _ _

/-- Over a finite graph the walk down ends within one turn for each membership, and two more.  It
asks for the members of the groups that can be reached, once each. -/
theorem ListsMembers.effectiveUsers_ends (h : e.ListsMembers G) (hG : G.Finite) (g : GroupId) :
    ∃ visits : List GroupId,
      (∃ k ≤ G.ncard + 2, ∃ r, Run.Loops (Walk.queueTurn e.memberStep) k (.start [g]) r ∧
        e.effectiveUsers g = do
          Run.count (.groupResolution "down")
          let w ← r
          pure (sortedUsers w.found)) ∧
      (e.effectiveUsers g).calls = visits.flatMap (fun b => [.directUsers b, .childGroups b]) ∧
      visits.Nodup ∧
      ∀ b, b ∈ visits ↔ Relation.ReflTransGen G.Nests g b := by
  obtain ⟨bound, hlength, hbound⟩ := MembershipGraph.exists_bound hG fun m => ⟨m.member⟩
  -- all groups that are met are members of some group
  have hleads : ∀ b c, Walk.Leads e.memberStep b c → c ∈ bound := fun b c hbc => by
    rw [h.leads_memberStep] at hbc
    exact hbound _ hbc
  obtain ⟨k, hk, hloops⟩ := Walk.loops_queueTurn hleads (fun _ _ => mem_nestedGroups_of_leads) g
  obtain ⟨w, hw⟩ := Walk.exists_ok_rounds
    (fun b => (h.exists_memberStep b).imp fun _ hr => hr.1)
    (e.providers.nestedGroups.length + 1) (Walk.start [g])
  obtain ⟨visits, hnodup, hcalls, hvisits⟩ :=
    e.asks_memberStep.exists_visits_of_ends (fun _ _ => mem_nestedGroups_of_leads) hw
  refine ⟨visits, ⟨k, hlength ▸ hk, _, hloops, rfl⟩, ?_, hnodup, fun b => ?_⟩
  · rw [calls_effectiveUsers, hcalls]
  · rw [hvisits, h.leads_memberStep]

/-! ### Up the managers -/

/-- A turn of the loop that goes up from an owner: it stops at the user, at a user without a
manager and at one who was met before, and where only direct managers count. -/
def managerTurn (e : Engine) (user : UserId) (s : UserId × List UserId) :
    Run (Turn (UserId × List UserId) Bool) := do
  let found ← e.ask (.user s.1)
  match found.bind (·.manager) with
  | none => pure (.left false)
  | some manager =>
    if manager = user then pure (.left true)
    else if e.settings.managerScope = .direct ∨ s.2.contains manager then pure (.left false)
    else pure (.again (manager, manager :: s.2))

theorem managesFrom_succ (user : UserId) (n : ℕ) (s : UserId × List UserId) :
    e.managesFrom user (n + 1) s.1 s.2 =
      e.managerTurn user s >>= Turn.next fun s' => e.managesFrom user n s'.1 s'.2 := by
  rw [managerTurn, Run.bind_assoc, managesFrom]
  refine Run.bind_congr_of_ok fun found _ => ?_
  cases found.bind (·.manager) with
  | none => rfl
  | some manager =>
    dsimp only
    split
    · rfl
    · by_cases hstop : e.settings.managerScope = .direct ∨ manager ∈ s.2
      · rw [if_pos hstop, if_pos (hstop.imp_right List.contains_iff_mem.2)]
        rfl
      · rw [if_neg hstop, if_neg (mt (Or.imp_right List.contains_iff_mem.1) hstop)]
        rfl

theorem loops_managerTurn {bound : List UserId} (hbound : ∀ u m, e.Reports u m → m ∈ bound)
    (user owner : UserId) :
    ∃ k ≤ bound.length + 1, Run.Loops (e.managerTurn user) k (owner, [owner])
      (e.isManagerOf user owner) := by
  -- the managers who were met are different ones of the bound, and each turn meets one more
  have hagain : ∀ s s' : UserId × List UserId,
      (s.2.Nodup ∧ s.2 ⊆ owner :: bound) →
      (e.managerTurn user s).outcome = .ok (.again s') →
      (s'.2.Nodup ∧ s'.2 ⊆ owner :: bound) ∧
        (owner :: bound).length - s'.2.length < (owner :: bound).length - s.2.length := by
    rintro s s' ⟨hnodup, hsub⟩ h
    obtain ⟨found, hfound, hrest⟩ := Run.outcome_bind_eq_ok.1 h
    cases hm : found.bind (·.manager) with
    | none =>
      rw [hm] at hrest
      cases hrest
    | some manager =>
      simp only [hm] at hrest
      split at hrest
      · cases hrest
      · split at hrest
        · cases hrest
        · rename_i hgo
          cases hrest
          have hnew : manager ∉ s.2 := fun hmem => hgo (.inr (List.contains_iff_mem.2 hmem))
          have hreports : e.Reports s.1 manager := (reports_iff_of_ok hfound).2 hm
          have hnodup' : (manager :: s.2).Nodup := List.nodup_cons.2 ⟨hnew, hnodup⟩
          have hsub' : manager :: s.2 ⊆ owner :: bound :=
            List.cons_subset.2 ⟨List.mem_cons_of_mem owner (hbound _ _ hreports), hsub⟩
          have hle := (List.subperm_of_subset hnodup' hsub').length_le
          refine ⟨⟨hnodup', hsub'⟩, ?_⟩
          simp only [List.length_cons] at hle ⊢
          omega
  obtain ⟨k, hk, r, hr⟩ := Run.exists_loops hagain (s := (owner, [owner])) (by simp)
  refine ⟨k, by simpa using hk, ?_⟩
  -- the loop takes no number of steps, so it is compared with as many as either needs
  have hlong : e.managesFrom user (max k (e.providers.managers.length + 1)) owner [owner] = r :=
    @Run.Loops.eq_of_le _ _ _ (fun n s => e.managesFrom user n s.1 s.2) (managesFrom_succ user)
      _ _ _ hr _ (Nat.le_max_left _ _)
  rwa [← hlong, managesFrom_of_le (Nat.le_max_right _ _) (climbed_start user owner) (by simp)]
    at hr

theorem exists_looked_managesFrom (user : UserId) (n : ℕ) {current : UserId}
    {visited : List UserId} (hcurrent : current ∈ visited) :
    ∃ looked : List UserId, (e.managesFrom user n current visited).calls = looked.map .user ∧
      looked.Nodup ∧ ∀ u ∈ looked, u = current ∨ u ∉ visited := by
  induction n generalizing current visited with
  | zero => exact ⟨[], rfl, List.nodup_nil, by simp⟩
  | succ n ih =>
    cases hfound : (e.ask (.user current)).outcome with
    | error error =>
      exact ⟨[current], by rw [managesFrom, Run.calls_bind_of_error hfound, calls_ask]; rfl,
        by simp, by simp⟩
    | ok found =>
      rw [managesFrom, Run.calls_bind_of_ok hfound, calls_ask]
      have hstop : ∃ looked : List UserId, [Query.user current] ++ [] = looked.map .user ∧
          looked.Nodup ∧ ∀ u ∈ looked, u = current ∨ u ∉ visited :=
        ⟨[current], rfl, by simp, by simp⟩
      split
      · exact hstop
      · rename_i manager _
        split
        · exact hstop
        · split
          · exact hstop
          · rename_i hgo
            have hnew : manager ∉ visited := fun hmem => hgo (.inr hmem)
            have hmet : manager ∈ manager :: visited := List.mem_cons_self
            obtain ⟨looked, hcalls, hnodup, hlooked⟩ := ih hmet
            -- those who are looked up later were not visited, as the current user was
            have hlater : ∀ u ∈ looked, u ∉ visited := fun u hu => by
              rcases hlooked u hu with rfl | hmem
              · exact hnew
              · exact fun hv => hmem (List.mem_cons_of_mem manager hv)
            refine ⟨current :: looked, by rw [hcalls]; rfl, ?_, fun u hu => ?_⟩
            · exact List.nodup_cons.2 ⟨fun hmem => hlater current hmem hcurrent, hnodup⟩
            · exact (List.mem_cons.1 hu).imp_right (hlater u)

theorem exists_looked_isManagerOf (e : Engine) (user owner : UserId) :
    ∃ looked : List UserId, (e.isManagerOf user owner).calls = looked.map .user ∧
      looked.Nodup := by
  obtain ⟨looked, hcalls, hnodup, -⟩ := exists_looked_managesFrom (e := e) user
    (e.providers.managers.length + 1) (List.mem_singleton_self owner)
  exact ⟨looked, hcalls, hnodup⟩

/-- Over a directory the chain of managers ends within one turn for each entry, and one more. -/
theorem ServesDirectory.isManagerOf_ends {directory : List User} (h : e.ServesDirectory directory)
    (user owner : UserId) :
    (∃ k ≤ directory.length + 1, Run.Loops (e.managerTurn user) k (owner, [owner])
        (e.isManagerOf user owner)) ∧
      ∃ looked : List UserId, (e.isManagerOf user owner).calls = looked.map .user ∧
        looked.Nodup := by
  refine ⟨?_, e.exists_looked_isManagerOf user owner⟩
  have hbound : ∀ u m, e.Reports u m → m ∈ directory.filterMap (·.manager) := by
    rintro u m ⟨x, hx, hm⟩
    rw [h.entry u] at hx
    exact List.mem_filterMap.2 ⟨x, List.mem_of_find?_eq_some (Except.ok.inj hx), hm⟩
  obtain ⟨k, hk, hloops⟩ := loops_managerTurn hbound user owner
  have hlength := directory.length_filterMap_le (·.manager)
  exact ⟨k, by omega, hloops⟩

/-! ### Down the reports -/

theorem asks_reportStep (e : Engine) : Walk.Asks e.reportStep fun m => [.subordinates m] := by
  have hcalls : ∀ m, (e.reportStep m).calls = [.subordinates m] := fun m =>
    calls_ask_bind e _ fun _ => rfl
  exact ⟨fun m => hcalls m ▸ List.prefix_refl _, fun m _ _ => hcalls m⟩

theorem calls_subordinates (e : Engine) (user : UserId) :
    (e.subordinates user).calls =
      (Walk.rounds e.reportStep (e.providers.managedUsers.length + 1) (.start [user])).calls :=
  Run.calls_bind_of_quiet fun _ => rfl

/-- Nobody is asked for reports twice, whatever the providers answer. -/
theorem nodup_calls_subordinates (e : Engine) (user : UserId) :
    (e.subordinates user).calls.Nodup := by
  rw [calls_subordinates]
  exact e.asks_reportStep.nodup_calls (by simp) (by simp) _ _

/-- Over a directory the walk down the reports ends within one turn for each entry, and two
more. -/
theorem ServesDirectory.subordinates_ends {directory : List User} (h : e.ServesDirectory directory)
    (user : UserId) :
    (∃ k ≤ directory.length + 2, ∃ r,
        Run.Loops (Walk.queueTurn e.reportStep) k (.start [user]) r ∧
        e.subordinates user = do
          let w ← r
          pure (sortedUsers w.found)) ∧
      ∃ visits : List UserId, (e.subordinates user).calls = visits.map .subordinates ∧
        visits.Nodup := by
  constructor
  · -- all who are met have an entry
    have hleads : ∀ m x, Walk.Leads e.reportStep m x → x ∈ directory.map (·.id) := by
      intro m x hmx
      have hlisted : e.ListedUnder x m := (leads_reportStep.1 hmx).2
      obtain ⟨y, hy, hid, -⟩ := (listedUnder_iff_of_reports h.reports x m).1 hlisted
      exact List.mem_map.2 ⟨y, hy, hid⟩
    obtain ⟨k, hk, hloops⟩ :=
      Walk.loops_queueTurn hleads (fun _ _ => mem_managedUsers_of_leads) user
    exact ⟨k, by simpa using hk, _, hloops, rfl⟩
  · have hstep : ∀ m, ∃ r, (e.reportStep m).outcome = .ok r := fun m => by
      obtain ⟨us, hus, -⟩ := h.reports m
      exact ⟨_, Run.outcome_bind_of_ok hus _⟩
    obtain ⟨w, hw⟩ := Walk.exists_ok_rounds hstep (e.providers.managedUsers.length + 1)
      (Walk.start [user])
    obtain ⟨visits, hnodup, hcalls, -⟩ :=
      e.asks_reportStep.exists_visits_of_ends (fun _ _ => mem_managedUsers_of_leads) hw
    exact ⟨visits, by rw [calls_subordinates, hcalls, ← List.map_eq_flatMap], hnodup⟩

/-! ### All traversals -/

/-- **Every traversal ends and repeats nothing.**  Over finitely many memberships and users,
whatever circles they form and whoever is missing from them, for any depth and any scope, the four
loops end within so many turns as there are memberships or entries, and two more.  The walk up asks
for the parents of exactly the groups that are nearer than the depth, once each.  The walk down asks
for the users and the groups of exactly the groups that can be reached, once each.  Nobody is looked
up twice for their manager, nor asked twice for their reports. -/
theorem traversals_end_and_repeat_nothing (e : Engine) (G : MembershipGraph) (hG : G.Finite)
    (directory : List User) (hparents : e.ListsParents G) (hmembers : e.ListsMembers G)
    (hdirectory : e.ServesDirectory directory) :
    (∀ user, ∃ direct, ∃ visits : List GroupId,
      (e.ask (.directGroups user)).outcome = .ok direct ∧
      (∃ k ≤ G.ncard + 1, ∃ r, Run.Loops (e.upwardTurn user) k (0, .start direct) r ∧
        e.effectiveGroups user = do
          Run.count (.groupResolution "up")
          let _ ← e.ask (.directGroups user)
          r) ∧
      (e.effectiveGroups user).calls = .directGroups user :: visits.map .parentGroups ∧
      visits.Nodup ∧
      ∀ g, g ∈ visits ↔ ∃ n < e.settings.maxGroupDepth, IsLeast {n | G.Above user n g} n) ∧
    (∀ g, ∃ visits : List GroupId,
      (∃ k ≤ G.ncard + 2, ∃ r, Run.Loops (Walk.queueTurn e.memberStep) k (.start [g]) r ∧
        e.effectiveUsers g = do
          Run.count (.groupResolution "down")
          let w ← r
          pure (sortedUsers w.found)) ∧
      (e.effectiveUsers g).calls = visits.flatMap (fun b => [.directUsers b, .childGroups b]) ∧
      visits.Nodup ∧
      ∀ b, b ∈ visits ↔ Relation.ReflTransGen G.Nests g b) ∧
    (∀ user owner,
      (∃ k ≤ directory.length + 1, Run.Loops (e.managerTurn user) k (owner, [owner])
        (e.isManagerOf user owner)) ∧
      ∃ looked : List UserId, (e.isManagerOf user owner).calls = looked.map .user ∧
        looked.Nodup) ∧
    ∀ user,
      (∃ k ≤ directory.length + 2, ∃ r,
        Run.Loops (Walk.queueTurn e.reportStep) k (.start [user]) r ∧
        e.subordinates user = do
          let w ← r
          pure (sortedUsers w.found)) ∧
      ∃ visits : List UserId, (e.subordinates user).calls = visits.map .subordinates ∧
        visits.Nodup :=
  ⟨hparents.effectiveGroups_ends hG, hmembers.effectiveUsers_ends hG,
    hdirectory.isManagerOf_ends, hdirectory.subordinates_ends⟩

/-- Groups and managers in circles. -/
def circles : Store := { Store.diamond with users := circle }

/-- At the largest depth of 64 bits, the walk up from the user asks about each of the four groups
once, and the chain up from her comes back to her within five turns. -/
theorem circles_end :
    (circles.graph.Finite ∧
      (circles.engine ⟨18446744073709551615, .transitive⟩).ListsParents circles.graph ∧
      (circles.engine ⟨18446744073709551615, .transitive⟩).ListsMembers circles.graph ∧
      (circles.engine ⟨18446744073709551615, .transitive⟩).ServesDirectory circle) ∧
    (∃ n < 18446744073709551615, IsLeast {n | circles.graph.Above ⟨"ann"⟩ n ⟨"top"⟩} n) ∧
    ∃ k ≤ 5, Run.Loops
      ((circles.engine ⟨18446744073709551615, .transitive⟩).managerTurn ⟨"cid"⟩) k
      (⟨"ann"⟩, [⟨"ann"⟩])
      ((circles.engine ⟨18446744073709551615, .transitive⟩).isManagerOf ⟨"cid"⟩ ⟨"ann"⟩) := by
  have hfinite : circles.graph.Finite := List.finite_toSet circles.memberships
  have hanswers : (circles.engine ⟨18446744073709551615, .transitive⟩).AnsweredFrom circles
      fun c => c.provider = .groups :=
    Store.answeredFrom_engine _ fun _ _ => List.not_mem_nil
  have hserves : (circles.engine ⟨18446744073709551615, .transitive⟩).ServesDirectory circle :=
    Store.servesDirectory _ List.not_mem_nil
  obtain ⟨hup, -, hmanagers, -⟩ := traversals_end_and_repeat_nothing _ circles.graph hfinite circle
    (Store.listsParents hanswers) (Store.listsMembers hanswers) hserves
  obtain ⟨direct, visits, -, -, hcalls, -, hvisits⟩ := hup ⟨"ann"⟩
  have hasked : ((circles.engine ⟨18446744073709551615, .transitive⟩).effectiveGroups
      ⟨"ann"⟩).calls = [.directGroups ⟨"ann"⟩, .parentGroups ⟨"own"⟩, .parentGroups ⟨"left"⟩,
        .parentGroups ⟨"right"⟩, .parentGroups ⟨"top"⟩] := rfl
  -- the group on top was asked about, so it is nearer than the depth
  have htop : Query.parentGroups ⟨"top"⟩ ∈ visits.map Query.parentGroups := by
    rw [List.tail_eq_of_cons_eq (hcalls.symm.trans hasked)]
    simp
  obtain ⟨g, hg, heq⟩ := List.mem_map.1 htop
  cases heq
  exact ⟨⟨hfinite, Store.listsParents hanswers, Store.listsMembers hanswers, hserves⟩,
    (hvisits _).1 hg, (hmanagers ⟨"cid"⟩ ⟨"ann"⟩).1⟩

end Engine

end RecordAccess
