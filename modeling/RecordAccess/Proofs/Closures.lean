import Mathlib.Data.Nat.Find
import Mathlib.Order.Bounds.Basic
import RecordAccess.Engine.Groups
import RecordAccess.Proofs.Histories
import RecordAccess.Proofs.Sorting
import RecordAccess.Proofs.Walks

/-!
# Closures of membership graphs

A `MembershipGraph` says who is directly in which group; it may have circles, groups inside
themselves and several ways from one group to another.  The data providers list it: each edge at
least once, in any order (`Engine.ListsParents`, `Engine.ListsMembers`).  Whatever the listing,

* the upward walk from a user gives the groups no further away than the settings allow
  (`Engine.effectiveGroups_are_ball`);
* the downward walk from a group gives the users of every group below it, however deep
  (`Engine.effectiveUsers_are_closure`).
-/

namespace RecordAccess

/-! ### Graphs -/

/-- Who is directly in which group. -/
abbrev MembershipGraph := Set Membership

namespace MembershipGraph

variable (G : MembershipGraph)

/-- A group is a direct member of another. -/
def Nests (parent child : GroupId) : Prop := .nested parent child ∈ G

/-- A chain of so many nestings leads from a group up to another. -/
inductive Climbs : ℕ → GroupId → GroupId → Prop
  | here (g : GroupId) : Climbs 0 g g
  | up {n : ℕ} {g h parent : GroupId} (hc : Climbs n g h) (hp : G.Nests parent h) :
    Climbs (n + 1) g parent

/-- A group is so many nestings above one that a user is directly in. -/
def Above (user : UserId) (n : ℕ) (g : GroupId) : Prop :=
  ∃ direct, .ofUser direct user ∈ G ∧ G.Climbs n direct g

instance [DecidablePred (· ∈ G)] (parent child : GroupId) : Decidable (G.Nests parent child) :=
  inferInstanceAs (Decidable (_ ∈ G))

variable {G} {G' : MembershipGraph}

theorem Climbs.mono (h : ∀ m ∈ G, m ∈ G') {n : ℕ} {g g' : GroupId} (hc : G.Climbs n g g') :
    G'.Climbs n g g' := by
  induction hc with
  | here g => exact .here g
  | up _ hp ih => exact ih.up (h _ hp)

theorem Above.mono (h : ∀ m ∈ G, m ∈ G') {user : UserId} {n : ℕ} {g : GroupId}
    (ha : G.Above user n g) : G'.Above user n g := by
  obtain ⟨direct, hdirect, hc⟩ := ha
  exact ⟨direct, h _ hdirect, hc.mono h⟩

theorem exists_above_iff_isLeast {user : UserId} {d : ℕ} {g : GroupId} :
    (∃ n ≤ d, G.Above user n g) ↔ ∃ n ≤ d, IsLeast {n | G.Above user n g} n := by
  classical
  constructor
  · rintro ⟨n, hn, h⟩
    have hex : ∃ n, G.Above user n g := ⟨n, h⟩
    exact ⟨Nat.find hex, (Nat.find_min' hex h).trans hn, Nat.find_spec hex,
      fun m hm => Nat.find_min' hex hm⟩
  · rintro ⟨n, hn, h, -⟩
    exact ⟨n, hn, h⟩

end MembershipGraph

namespace Engine

variable {e : Engine} {G : MembershipGraph}

/-! ### Upward -/

/-- The groups above users and groups are listed as a graph has them. -/
structure ListsParents (e : Engine) (G : MembershipGraph) : Prop where
  direct : ∀ user, ∃ groups, (e.ask (.directGroups user)).outcome = .ok groups ∧
    ∀ g, g ∈ groups ↔ .ofUser g user ∈ G
  parents : ∀ g, ∃ edges, (e.ask (.parentGroups g)).outcome = .ok edges ∧
    ∀ parent, parent ∈ edges.map (·.group) ↔ G.Nests parent g

namespace ListsParents

variable (h : e.ListsParents G)

include h

theorem exists_parentStep (g : GroupId) :
    ∃ r, (e.parentStep g).outcome = .ok r ∧ ∀ parent, parent ∈ r.2 ↔ G.Nests parent g := by
  obtain ⟨edges, hedges, hmem⟩ := h.parents g
  exact ⟨([], edges.map (·.group)), Run.outcome_bind_of_ok hedges _, hmem⟩

theorem leads_parentStep {g parent : GroupId} :
    Walk.Leads e.parentStep g parent ↔ G.Nests parent g := by
  obtain ⟨r, hr, hmem⟩ := h.exists_parentStep g
  rw [Walk.leads_iff_of_ok hr, hmem]

/-- The walk gets in so many rounds to what is that many nestings away, or fewer. -/
theorem within_iff_above {user : UserId} {groups : List GroupId}
    (hgroups : ∀ g, g ∈ groups ↔ .ofUser g user ∈ G) {d : ℕ} {g : GroupId} :
    Walk.Within e.parentStep groups d g ↔ ∃ n ≤ d, G.Above user n g := by
  constructor
  · intro hw
    -- rounds and nestings are counted together
    induction hw with
    | start hg => exact ⟨0, le_rfl, _, (hgroups _).1 hg, .here _⟩
    | later _ ih =>
      obtain ⟨n, hn, hh⟩ := ih
      exact ⟨n, hn.trans (Nat.le_succ _), hh⟩
    | next _ hab ih =>
      obtain ⟨n, hn, direct, hdirect, hc⟩ := ih
      exact ⟨n + 1, Nat.succ_le_succ hn, direct, hdirect, hc.up (h.leads_parentStep.1 hab)⟩
  · rintro ⟨n, hn, direct, hdirect, hc⟩
    refine Walk.Within.mono ?_ hn
    induction hc with
    | here g => exact .start ((hgroups g).2 hdirect)
    | up _ hp ih => exact (ih ((Nat.le_succ _).trans hn) hdirect).next (h.leads_parentStep.2 hp)

theorem exists_effectiveGroups (user : UserId) :
    ∃ groups, (e.effectiveGroups user).outcome = .ok (sortedGroups groups) ∧
      ∀ g, g ∈ groups ↔ ∃ n ≤ e.settings.maxGroupDepth, G.Above user n g := by
  obtain ⟨direct, hdirect, hmem⟩ := h.direct user
  obtain ⟨w, hw⟩ := Walk.exists_ok_rounds
    (fun g => (h.exists_parentStep g).imp fun _ hr => hr.1)
    e.settings.maxGroupDepth (Walk.start direct)
  refine ⟨w.seen, ?_, fun g => ?_⟩
  · rw [effectiveGroups, Run.outcome_bind_of_ok (Run.outcome_count _),
      Run.outcome_bind_of_ok hdirect, Run.outcome_bind_of_ok hw]
    -- groups left unexpanded are reported, and nothing else
    split <;> rfl
  · rw [(Walk.covers_rounds hw).mem_seen, h.within_iff_above hmem]

end ListsParents

/-! ### Downward -/

/-- The members of groups are listed as a graph has them. -/
structure ListsMembers (e : Engine) (G : MembershipGraph) : Prop where
  users : ∀ g, ∃ us, (e.ask (.directUsers g)).outcome = .ok us ∧ ∀ u, u ∈ us ↔ .ofUser g u ∈ G
  children : ∀ g, ∃ cs, (e.ask (.childGroups g)).outcome = .ok cs ∧ ∀ c, c ∈ cs ↔ G.Nests g c

theorem mem_nestedGroups_of_leads {g h : GroupId} (hgh : Walk.Leads e.memberStep g h) :
    h ∈ e.providers.nestedGroups := by
  obtain ⟨here, next, hstep, hh⟩ := hgh
  obtain ⟨users, -, hrest⟩ := Run.outcome_bind_eq_ok.1 hstep
  obtain ⟨children, hchildren, heq⟩ := Run.outcome_bind_eq_ok.1 hrest
  cases heq
  exact e.providers.nested_of_child g _ hchildren h hh

namespace ListsMembers

variable (h : e.ListsMembers G)

include h

theorem exists_memberStep (g : GroupId) :
    ∃ r, (e.memberStep g).outcome = .ok r ∧ (∀ u, u ∈ r.1 ↔ .ofUser g u ∈ G) ∧
      ∀ c, c ∈ r.2 ↔ G.Nests g c := by
  obtain ⟨us, hus, hu⟩ := h.users g
  obtain ⟨cs, hcs, hc⟩ := h.children g
  refine ⟨(us, cs), ?_, hu, hc⟩
  rw [memberStep, Run.outcome_bind_of_ok hus, Run.outcome_bind_of_ok hcs]
  rfl

theorem leads_memberStep : Walk.Leads e.memberStep = G.Nests := by
  funext g c
  obtain ⟨r, hr, -, hmem⟩ := h.exists_memberStep g
  rw [Walk.leads_iff_of_ok hr, hmem]

theorem lies_memberStep {g : GroupId} {u : UserId} :
    Walk.Lies e.memberStep g u ↔ .ofUser g u ∈ G := by
  obtain ⟨r, hr, hmem, -⟩ := h.exists_memberStep g
  rw [Walk.lies_iff_of_ok hr, hmem]

theorem exists_effectiveUsers (g : GroupId) :
    ∃ users, (e.effectiveUsers g).outcome = .ok (sortedUsers users) ∧
      ∀ u, u ∈ users ↔ ∃ below, Relation.ReflTransGen G.Nests g below ∧ .ofUser below u ∈ G := by
  obtain ⟨w, hw⟩ := Walk.exists_ok_rounds
    (fun g => (h.exists_memberStep g).imp fun _ hr => hr.1)
    (e.providers.nestedGroups.length + 1) (Walk.start [g])
  have hend := Walk.frontier_eq_nil (fun _ _ => mem_nestedGroups_of_leads) hw
  refine ⟨w.found, ?_, fun u => ?_⟩
  · rw [effectiveUsers, Run.outcome_bind_of_ok (Run.outcome_count _), Run.outcome_bind_of_ok hw]
    rfl
  · rw [(Walk.covers_rounds hw).mem_found_iff hend]
    simp only [List.mem_singleton, exists_eq_left, h.leads_memberStep, h.lies_memberStep]

end ListsMembers

end Engine

/-! ### What a store lists -/

namespace Store

variable {s : Store} {e : Engine}

/-- The memberships of a store as a graph. -/
def graph (s : Store) : MembershipGraph := {m | m ∈ s.memberships}

instance : DecidablePred (· ∈ s.graph) := fun m => inferInstanceAs (Decidable (m ∈ s.memberships))

/-- A user is inside a group, directly or through nested groups. -/
def HasMember (s : Store) (g : GroupId) (u : UserId) : Prop :=
  ∃ h, Relation.ReflTransGen s.graph.Nests g h ∧ .ofUser h u ∈ s.memberships

/-- A user is inside the groups that are above the user in the graph of the store. -/
theorem hasMember_iff_above {g : GroupId} {u : UserId} :
    s.HasMember g u ↔ ∃ n, s.graph.Above u n g := by
  constructor
  · rintro ⟨direct, hbelow, hdirect⟩
    induction hbelow using Relation.ReflTransGen.head_induction_on with
    | refl => exact ⟨0, direct, hdirect, .here _⟩
    | head hp _ ih =>
      obtain ⟨n, direct, hdirect, hc⟩ := ih
      exact ⟨n + 1, direct, hdirect, hc.up hp⟩
  · rintro ⟨n, direct, hdirect, hc⟩
    refine ⟨direct, ?_, hdirect⟩
    induction hc with
    | here g => exact .refl
    | up _ hp ih => exact (ih hdirect).head hp

theorem mem_membersOf {g : GroupId} {type : MemberType} {id : String} :
    id ∈ s.membersOf g type ↔ ⟨g, type, id⟩ ∈ s.memberships := by
  simp only [membersOf, List.mem_map, List.mem_filter, Bool.and_eq_true, decide_eq_true_eq]
  constructor
  · rintro ⟨⟨_, _, _⟩, ⟨hm, rfl, rfl⟩, rfl⟩
    exact hm
  · exact fun h => ⟨_, ⟨h, rfl, rfl⟩, rfl⟩

theorem mem_map_mk {kind : IdKind} {i : Id kind} {texts : List String} :
    i ∈ texts.map Id.mk ↔ i.text ∈ texts := by
  constructor
  · intro h
    obtain ⟨t, ht, rfl⟩ := List.mem_map.1 h
    exact ht
  · exact fun h => List.mem_map.2 ⟨i.text, h, rfl⟩

theorem mem_map_group {type : MemberType} {id : String} {g : GroupId} :
    g ∈ (s.memberships.filter fun m => m.holds type id).map (·.group) ↔
      ⟨g, type, id⟩ ∈ s.memberships := by
  simp only [List.mem_map, List.mem_filter, Membership.holds, Bool.and_eq_true, decide_eq_true_eq]
  constructor
  · rintro ⟨⟨_, _, _⟩, ⟨hm, rfl, rfl⟩, rfl⟩
    exact hm
  · exact fun h => ⟨_, ⟨h, rfl, rfl⟩, rfl⟩

section Lists

variable (he : e.AnsweredFrom s fun c => c.provider = .groups)

include he

theorem listsParents : e.ListsParents s.graph where
  direct user := ⟨_, he (.directGroups user) rfl, fun _ => mem_map_group⟩
  parents g := by
    refine ⟨_, he (.parentGroups g) rfl, fun parent => ?_⟩
    rw [answer, List.map_map]
    exact mem_map_group

theorem listsMembers : e.ListsMembers s.graph where
  users g := ⟨_, he (.directUsers g) rfl, fun _ => mem_map_mk.trans mem_membersOf⟩
  children g := ⟨_, he (.childGroups g) rfl, fun _ => mem_map_mk.trans mem_membersOf⟩

/-- **The effective users of a group are the users inside it.** -/
theorem exists_effectiveUsers (g : GroupId) :
    ∃ us, (e.effectiveUsers g).outcome = .ok us ∧ ∀ u, u ∈ us ↔ s.HasMember g u := by
  obtain ⟨us, hus, hmem⟩ := (listsMembers he).exists_effectiveUsers g
  refine ⟨sortedUsers us, hus, fun u => ?_⟩
  rw [mem_sortedUsers, hmem]
  rfl

end Lists

/-- Two ways lead from a user's group up to a group on top, which is nested in the user's group
again.  One membership is there twice. -/
def diamond : Store where
  memberships := [.nested ⟨"top"⟩ ⟨"right"⟩, .nested ⟨"left"⟩ ⟨"own"⟩, .ofUser ⟨"own"⟩ ⟨"ann"⟩,
    .nested ⟨"top"⟩ ⟨"left"⟩, .nested ⟨"left"⟩ ⟨"own"⟩, .nested ⟨"right"⟩ ⟨"own"⟩,
    .nested ⟨"own"⟩ ⟨"top"⟩, .ofUser ⟨"own"⟩ ⟨"ann"⟩]

theorem diamond_answers (settings : EngineSettings) :
    (diamond.engine settings).AnsweredFrom diamond fun c => c.provider = .groups :=
  answeredFrom_engine settings fun _ _ => List.not_mem_nil

end Store

/-! ### The closures -/

namespace Engine

/-- **The effective groups of a user are a ball in the graph.**  They are the groups that some
direct group of the user leads up to by no more nestings than the settings allow, which are the
groups whose distance is within the settings.  However the groups are listed, each comes once. -/
theorem effectiveGroups_are_ball (e : Engine) (G : MembershipGraph) (h : e.ListsParents G)
    (user : UserId) :
    ∃ groups, (e.effectiveGroups user).outcome = .ok groups ∧
      groups.Pairwise (fun g g' => g.text < g'.text) ∧
      ∀ g, (g ∈ groups ↔ ∃ n ≤ e.settings.maxGroupDepth, G.Above user n g) ∧
        (g ∈ groups ↔ ∃ n ≤ e.settings.maxGroupDepth, IsLeast {n | G.Above user n g} n) := by
  obtain ⟨groups, hgroups, hmem⟩ := h.exists_effectiveGroups user
  have hball : ∀ g, g ∈ sortedGroups groups ↔
      ∃ n ≤ e.settings.maxGroupDepth, G.Above user n g := fun g => by
    rw [mem_sortedGroups, hmem]
  exact ⟨_, hgroups, List.pairwise_map.2 (Text.pairwise_sortedSet _), fun g =>
    ⟨hball g, (hball g).trans MembershipGraph.exists_above_iff_isLeast⟩⟩

/-- One nesting up from her own group, the user is in the groups on both sides and not yet in the
one on top. -/
theorem diamond_within_one :
    ((Store.diamond.engine ⟨1, .direct⟩).ListsParents Store.diamond.graph) ∧
      ∃ groups, ((Store.diamond.engine ⟨1, .direct⟩).effectiveGroups ⟨"ann"⟩).outcome =
        .ok groups ∧ ⟨"left"⟩ ∈ groups ∧ ⟨"top"⟩ ∉ groups := by
  have h := Store.listsParents (Store.diamond_answers ⟨1, .direct⟩)
  obtain ⟨groups, hgroups, -, hmem⟩ := effectiveGroups_are_ball _ _ h ⟨"ann"⟩
  have hresult : ((Store.diamond.engine ⟨1, .direct⟩).effectiveGroups ⟨"ann"⟩).outcome =
      .ok [⟨"left"⟩, ⟨"own"⟩, ⟨"right"⟩] := rfl
  refine ⟨h, groups, hgroups, (hmem _).1.2 ?_, ?_⟩
  · have hown : Store.diamond.graph.Nests ⟨"left"⟩ ⟨"own"⟩ := by decide
    exact ⟨1, le_rfl, ⟨"own"⟩, by decide, (MembershipGraph.Climbs.here _).up hown⟩
  · cases hgroups.symm.trans hresult
    decide

/-- **The effective users of a group are the members of its closure.**  They are the direct members
of the group and of every group that one or more nestings lead down to, at any depth: the settings
do not matter.  However the members are listed, each comes once. -/
theorem effectiveUsers_are_closure (e : Engine) (G : MembershipGraph) (h : e.ListsMembers G)
    (g : GroupId) :
    (∃ users, (e.effectiveUsers g).outcome = .ok users ∧
      users.Pairwise (fun u u' => u.text < u'.text) ∧
      ∀ u, u ∈ users ↔ .ofUser g u ∈ G ∨
        ∃ below, Relation.TransGen G.Nests g below ∧ .ofUser below u ∈ G) ∧
    ∀ settings, effectiveUsers ⟨e.providers, settings⟩ g = e.effectiveUsers g := by
  obtain ⟨users, husers, hmem⟩ := h.exists_effectiveUsers g
  refine ⟨⟨_, husers, List.pairwise_map.2 (Text.pairwise_sortedSet _), fun u => ?_⟩,
    fun settings => rfl⟩
  rw [mem_sortedUsers, hmem]
  simp only [Relation.reflTransGen_iff_eq_or_transGen, or_and_right, exists_or, exists_eq_left]

/-- The user is two nestings below the group on top, at a depth that allows none. -/
theorem diamond_below_top :
    ((Store.diamond.engine ⟨0, .direct⟩).ListsMembers Store.diamond.graph) ∧
      ∃ users, ((Store.diamond.engine ⟨0, .direct⟩).effectiveUsers ⟨"top"⟩).outcome =
        .ok users ∧ ⟨"ann"⟩ ∈ users := by
  have h := Store.listsMembers (Store.diamond_answers ⟨0, .direct⟩)
  obtain ⟨⟨users, husers, -, hmem⟩, -⟩ := effectiveUsers_are_closure _ _ h ⟨"top"⟩
  have htop : Store.diamond.graph.Nests ⟨"top"⟩ ⟨"left"⟩ := by decide
  have hleft : Store.diamond.graph.Nests ⟨"left"⟩ ⟨"own"⟩ := by decide
  exact ⟨h, users, husers, (hmem _).2 (.inr ⟨⟨"own"⟩, .tail (.single htop) hleft, by decide⟩)⟩

end Engine

end RecordAccess
