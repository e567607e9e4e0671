import RecordAccess.Proofs.Closures
import RecordAccess.Proofs.Frontiers

/-!
# Walks that are stopped by their depth

The walk to the groups above a user tells operators when its depth stops it, by a line and by a
counter (`Event.signalsDepth`).  It does so when groups are left whose parents it has not asked
for, which are the groups at exactly that distance (`Engine.depth_signals_unexpanded_groups`).
That a group is left out is told for certain.  The converse does not hold: the parents of the groups
that are left may all be known already, or there may be none (`Store.chain_signals_without_loss`).
-/

namespace RecordAccess

/-! ### Signals -/

/-- Whether an event tells that a walk up was stopped by its depth, to readers of lines or of
counters. -/
def Event.signalsDepth : Event → Bool
  | .logged n => n.message = "Maximum group nesting depth reached"
  | .counted c => c.name = "sharing_group_depth_truncations_total"
  | .asked _ => false

namespace Run

variable {α β : Type}

/-- What a run tells of walks that were stopped by their depth. -/
def depthSignals (r : Run α) : List Event := r.events.filter Event.signalsDepth

@[simp] theorem depthSignals_pure (a : α) : (Pure.pure a : Run α).depthSignals = [] := rfl

theorem depthSignals_bind_of_ok {r : Run α} {a : α} (h : r.outcome = .ok a) (f : α → Run β) :
    (r >>= f).depthSignals = r.depthSignals ++ (f a).depthSignals := by
  rw [depthSignals, events_bind_of_ok h, List.filter_append]
  rfl

theorem depthSignals_bind_of_error {r : Run α} {e : AccessError} (h : r.outcome = .error e)
    (f : α → Run β) : (r >>= f).depthSignals = r.depthSignals := by
  rw [depthSignals, events_bind_of_error h, depthSignals]

theorem depthSignals_bind_eq_nil {r : Run α} {f : α → Run β} (hr : r.depthSignals = [])
    (hf : ∀ a, (f a).depthSignals = []) : (r >>= f).depthSignals = [] := by
  cases h : r.outcome with
  | error e => rw [depthSignals_bind_of_error h, hr]
  | ok a => rw [depthSignals_bind_of_ok h, hr, hf, List.append_nil]

end Run

namespace Walk

variable {α β : Type} [DecidableEq α] {step : α → Run (List β × List α)}

theorem depthSignals_visit (hstep : ∀ a, (step a).depthSignals = []) (as : List α) (m : Met α)
    (found : List β) : (visit step as m found).depthSignals = [] := by
  induction as generalizing m found with
  | nil => rfl
  | cons a as ih => exact Run.depthSignals_bind_eq_nil (hstep a) fun r => ih _ _

theorem depthSignals_rounds (hstep : ∀ a, (step a).depthSignals = []) (n : ℕ) (w : Walk α β) :
    (rounds step n w).depthSignals = [] := by
  induction n generalizing w with
  | zero => rfl
  | succ n ih =>
    unfold rounds
    split
    · rfl
    · exact Run.depthSignals_bind_eq_nil (depthSignals_visit hstep _ _ _) fun r => ih _

end Walk

theorem Store.events_ask {s : Store} {c : Query} (hp : c.provider ∉ s.failing) :
    (s.ask c).events = [] := by
  rw [ask, if_neg (by simpa using hp)]
  rfl

/-! ### Groups that are left out -/

namespace MembershipGraph

variable {G : MembershipGraph} {user : UserId}

/-- Groups are further above than a distance exactly when a nesting leads out of that distance. -/
theorem exists_further_iff {d : ℕ} :
    (∃ g, (∃ n, G.Above user n g) ∧ ¬ ∃ n ≤ d, G.Above user n g) ↔
      ∃ g, IsLeast {n | G.Above user n g} d ∧
        ∃ parent, G.Nests parent g ∧ ¬ ∃ n ≤ d, G.Above user n parent := by
  constructor
  · rintro ⟨g, ⟨n, direct, hdirect, hc⟩, hfar⟩
    -- on the way up to it there is a last group within the distance
    induction hc with
    | here g => exact absurd ⟨0, Nat.zero_le d, g, hdirect, .here g⟩ hfar
    | @up n g h parent hc hp ih =>
      by_cases hh : ∃ n ≤ d, G.Above user n h
      · -- the nesting leads from within the distance to outside of it
        have hstep : ∀ k, G.Above user k h → d ≤ k := by
          rintro k ⟨direct', hdirect', hc'⟩
          by_contra hlt
          exact hfar ⟨k + 1, by omega, direct', hdirect', hc'.up hp⟩
        obtain ⟨k, hk, ha⟩ := hh
        have hkd : k = d := le_antisymm hk (hstep k ha)
        exact ⟨h, ⟨hkd ▸ ha, fun k hk => hstep k hk⟩, parent, hp, hfar⟩
      · exact ih hh hdirect
  · rintro ⟨g, ⟨⟨direct, hdirect, hc⟩, -⟩, parent, hp, hfar⟩
    exact ⟨parent, ⟨d + 1, direct, hdirect, hc.up hp⟩, hfar⟩

end MembershipGraph

namespace Engine

variable {e : Engine} {G : MembershipGraph}

/-- The walk gets to a group in as many rounds as the group is away, and not before. -/
theorem ListsParents.isLeast_within_iff (h : e.ListsParents G) {user : UserId}
    {groups : List GroupId} (hgroups : ∀ g, g ∈ groups ↔ .ofUser g user ∈ G) {d : ℕ}
    {g : GroupId} :
    IsLeast {n | Walk.Within e.parentStep groups n g} d ↔ IsLeast {n | G.Above user n g} d := by
  have hwithin : ∀ n, Walk.Within e.parentStep groups n g ↔ ∃ k ≤ n, G.Above user k g :=
    fun n => h.within_iff_above hgroups
  constructor
  · rintro ⟨hd, hleast⟩
    obtain ⟨k, hk, ha⟩ := (hwithin d).1 hd
    have hkd : k = d := le_antisymm hk (hleast ((hwithin k).2 ⟨k, le_rfl, ha⟩))
    exact ⟨hkd ▸ ha, fun m hm => hleast ((hwithin m).2 ⟨m, le_rfl, hm⟩)⟩
  · rintro ⟨hd, hleast⟩
    refine ⟨(hwithin d).2 ⟨d, le_rfl, hd⟩, fun n hn => ?_⟩
    obtain ⟨k, hk, ha⟩ := (hwithin n).1 hn
    exact (hleast ha).trans hk

/-- The end of a walk up from a user, which reports groups that are left. -/
def upwardEnd (e : Engine) (user : UserId) (w : Walk GroupId Unit) : Run (List GroupId) :=
  if w.frontier.isEmpty then pure (sortedGroups w.seen)
  else do
    Run.log (.depthReached user e.settings.maxGroupDepth w.frontier.length)
    Run.count .depthTruncation
    pure (sortedGroups w.seen)

theorem effectiveGroups_eq (e : Engine) (user : UserId) :
    e.effectiveGroups user = (do
      Run.count (.groupResolution "up")
      let direct ← e.ask (.directGroups user)
      let w ← Walk.rounds e.parentStep e.settings.maxGroupDepth (.start direct)
      e.upwardEnd user w) := rfl

@[simp] theorem outcome_upwardEnd (user : UserId) (w : Walk GroupId Unit) :
    (e.upwardEnd user w).outcome = .ok (sortedGroups w.seen) := by
  unfold upwardEnd
  split <;> rfl

@[simp] theorem calls_upwardEnd (user : UserId) (w : Walk GroupId Unit) :
    (e.upwardEnd user w).calls = [] := by
  unfold upwardEnd
  split <;> rfl

theorem depthSignals_upwardEnd (user : UserId) (w : Walk GroupId Unit) :
    (e.upwardEnd user w).depthSignals =
      if w.frontier = [] then [] else
        [.logged (.depthReached user e.settings.maxGroupDepth w.frontier.length),
          .counted .depthTruncation] := by
  unfold upwardEnd
  by_cases h : w.frontier = []
  · simp [h]
  · rw [if_neg h, if_neg (by simpa using h)]
    rfl

theorem depthSignals_ask {c : Query}
    (hquiet : ∀ x ∈ (e.providers.ask c).events, x.signalsDepth = false) :
    (e.ask c).depthSignals = [] := by
  refine Run.depthSignals_bind_eq_nil rfl fun _ => ?_
  exact List.filter_eq_nil_iff.2 fun x hx => by simp [hquiet x hx]

/-- **A walk up signals that groups are left to be followed.**  A line and an increment of the
counter, in this order and once each, are left behind exactly where some groups are at the distance
at which the walk stops, and the line tells how many.  A group above the user is missing from the
result exactly where one of these groups is in a group that is missing. -/
theorem depth_signals_unexpanded_groups (e : Engine) (G : MembershipGraph) (h : e.ListsParents G)
    (hquiet : ∀ c : Query, c.provider = .groups →
      ∀ x ∈ (e.providers.ask c).events, x.signalsDepth = false) (user : UserId) :
    ∃ groups last, (e.effectiveGroups user).outcome = .ok groups ∧
      last.Nodup ∧
      (∀ g, g ∈ last ↔ IsLeast {n | G.Above user n g} e.settings.maxGroupDepth) ∧
      (e.effectiveGroups user).events.filter Event.signalsDepth =
        (if last = [] then [] else
          [.logged (.depthReached user e.settings.maxGroupDepth last.length),
            .counted .depthTruncation]) ∧
      ((∃ g, (∃ n, G.Above user n g) ∧ g ∉ groups) ↔
        ∃ g ∈ last, ∃ parent, G.Nests parent g ∧ parent ∉ groups) := by
  obtain ⟨direct, hdirect, hmem⟩ := h.direct user
  obtain ⟨w, hw⟩ := Walk.exists_ok_rounds
    (fun g => (h.exists_parentStep g).imp fun _ hr => hr.1)
    e.settings.maxGroupDepth (Walk.start direct)
  have hseen : ∀ g, g ∈ sortedGroups w.seen ↔
      ∃ n ≤ e.settings.maxGroupDepth, G.Above user n g := fun g => by
    rw [mem_sortedGroups, (Walk.covers_rounds hw).mem_seen, h.within_iff_above hmem]
  -- what is left to visit when the walk stops is at that distance and no nearer
  have hlast : ∀ g, g ∈ w.frontier ↔
      IsLeast {n | G.Above user n g} e.settings.maxGroupDepth := fun g => by
    rw [Walk.mem_frontier_iff hw, h.isLeast_within_iff hmem]
  refine ⟨sortedGroups w.seen, w.frontier, ?_, ?_, hlast, ?_, ?_⟩
  · rw [effectiveGroups_eq, Run.outcome_bind_of_ok (Run.outcome_count _),
      Run.outcome_bind_of_ok hdirect, Run.outcome_bind_of_ok hw, outcome_upwardEnd]
  · exact Walk.nodup_frontier hw
  · have hstep : ∀ g, (e.parentStep g).depthSignals = [] := fun g =>
      Run.depthSignals_bind_eq_nil (depthSignals_ask (hquiet _ rfl)) fun _ => rfl
    show (e.effectiveGroups user).depthSignals = _
    rw [effectiveGroups_eq, Run.depthSignals_bind_of_ok (Run.outcome_count _),
      Run.depthSignals_bind_of_ok hdirect, Run.depthSignals_bind_of_ok hw,
      depthSignals_ask (hquiet _ rfl), Walk.depthSignals_rounds hstep, depthSignals_upwardEnd]
    rfl
  · simp only [hseen, hlast]
    exact MembershipGraph.exists_further_iff

/-- In the diamond the group on top is missing at depth one, which is signalled. -/
theorem diamond_signals_top :
    (Store.diamond.engine ⟨1, .direct⟩).ListsParents Store.diamond.graph ∧
      (∀ c : Query, c.provider = .groups →
        ∀ x ∈ ((Store.diamond.engine ⟨1, .direct⟩).providers.ask c).events,
          x.signalsDepth = false) ∧
      ∃ unexpanded, ((Store.diamond.engine ⟨1, .direct⟩).effectiveGroups
        ⟨"ann"⟩).events.filter Event.signalsDepth =
          [.logged (.depthReached ⟨"ann"⟩ 1 unexpanded), .counted .depthTruncation] := by
  have h := Store.listsParents (Store.diamond_answers ⟨1, .direct⟩)
  have hquiet : ∀ c : Query, c.provider = .groups →
      ∀ x ∈ ((Store.diamond.engine ⟨1, .direct⟩).providers.ask c).events,
        x.signalsDepth = false := fun c _ x hx => by
    have hnone : ((Store.diamond.engine ⟨1, .direct⟩).providers.ask c).events = [] :=
      Store.events_ask List.not_mem_nil
    rw [hnone] at hx
    cases hx
  obtain ⟨groups, last, hgroups, -, -, hsignals, hmissing⟩ :=
    depth_signals_unexpanded_groups _ _ h hquiet ⟨"ann"⟩
  have hresult : ((Store.diamond.engine ⟨1, .direct⟩).effectiveGroups ⟨"ann"⟩).outcome =
      .ok [⟨"left"⟩, ⟨"own"⟩, ⟨"right"⟩] := rfl
  cases hgroups.symm.trans hresult
  have hleft : Store.diamond.graph.Nests ⟨"left"⟩ ⟨"own"⟩ := by decide
  have htop : Store.diamond.graph.Nests ⟨"top"⟩ ⟨"left"⟩ := by decide
  obtain ⟨g, hg, -⟩ := hmissing.1
    ⟨⟨"top"⟩, ⟨2, ⟨"own"⟩, by decide, .up (.up (.here _) hleft) htop⟩, by decide⟩
  exact ⟨h, hquiet, last.length, by rw [hsignals, if_neg (List.ne_nil_of_mem hg)]; rfl⟩

end Engine

namespace Store

/-- A user in a group that is in another group, and nothing further up. -/
def chain : Store where
  memberships := [.ofUser ⟨"group-0"⟩ ⟨"user-1"⟩, .nested ⟨"group-1"⟩ ⟨"group-0"⟩]

theorem chain_nests {parent child : GroupId} (h : chain.graph.Nests parent child) :
    parent = ⟨"group-1"⟩ := by
  have hmem : Membership.nested parent child ∈ chain.memberships := h
  simp [chain, Membership.nested, Membership.ofUser] at hmem
  exact hmem.1

/-- **At depth one nothing is missing from the chain, and it is signalled all the same.**  The
group on top is as far up as the walk goes, so it is not asked for its parents; it has none. -/
theorem chain_signals_without_loss :
    ((chain.engine ⟨1, .direct⟩).effectiveGroups ⟨"user-1"⟩).outcome =
        .ok [⟨"group-0"⟩, ⟨"group-1"⟩] ∧
      ¬ (((chain.engine ⟨1, .direct⟩).effectiveGroups
          ⟨"user-1"⟩).events.filter Event.signalsDepth =
            [.logged (.depthReached ⟨"user-1"⟩ 1 1), .counted .depthTruncation] ↔
        ∃ g, (∃ n, chain.graph.Above ⟨"user-1"⟩ n g) ∧
          g ∉ [(⟨"group-0"⟩ : GroupId), ⟨"group-1"⟩]) := by
  refine ⟨rfl, fun h => ?_⟩
  obtain ⟨g, ⟨n, direct, hdirect, hc⟩, hmissing⟩ := h.1 rfl
  cases hc with
  | here =>
    have hmem : Membership.ofUser g ⟨"user-1"⟩ ∈ chain.memberships := hdirect
    simp [chain, Membership.nested, Membership.ofUser] at hmem
    simp [hmem] at hmissing
  | up _ hp => simp [chain_nests hp] at hmissing

end Store

end RecordAccess
