import RecordAccess.Engine.Decide
import RecordAccess.Proofs.Histories
import RecordAccess.Proofs.Walks

/-!
# Managers above, reports below

The engine looks for a manager in two ways: upward from an owner (`Engine.isManagerOf`) and downward
from a manager (`Engine.subordinates`).  Both decide whether the scope of the settings lets the
manager reach the owner (`ManagerScope.Reaches`), the first in the relation of a user to the manager
in their entry, the second in the relation of a user to the managers they are listed under.  In a
directory the two relations are one, so the walks are converse whatever cycles there are
(`Engine.isManagerOf_is_converse`).  A store serves its users as a directory.
-/

namespace RecordAccess

/-- Whether a scope lets access pass from an owner up to a manager, where a relation says who has
which direct manager. -/
def ManagerScope.Reaches (scope : ManagerScope) (reports : UserId → UserId → Prop)
    (owner manager : UserId) : Prop :=
  match scope with
  | .direct => reports owner manager
  | .transitive => Relation.TransGen reports owner manager

theorem ManagerScope.reaches_congr {scope : ManagerScope} {r r' : UserId → UserId → Prop}
    (h : ∀ u m, r u m ↔ r' u m) (owner manager : UserId) :
    scope.Reaches r owner manager ↔ scope.Reaches r' owner manager := by
  have : r = r' := by funext u m; exact propext (h u m)
  rw [this]

namespace Engine

variable (e : Engine)

/-- The entry of a user names a manager. -/
def Reports (u m : UserId) : Prop :=
  ∃ x, (e.ask (.user u)).outcome = .ok (some x) ∧ x.manager = some m

/-- A user is listed under a manager. -/
def ListedUnder (u m : UserId) : Prop :=
  ∃ us, (e.ask (.subordinates m)).outcome = .ok us ∧ u ∈ us.map (·.id)

/-! ### Upward -/

/-- Where a chain of managers stands: at `current`, after the users of `visited`, none of whom
reports to `user` or leads out of `visited`. -/
structure Climbed (user owner current : UserId) (visited : List UserId) : Prop where
  nodup : visited.Nodup
  owner_mem : owner ∈ visited
  reached : Relation.ReflTransGen e.Reports owner current
  bounded : ∀ v ∈ visited, v = owner ∨ v ∈ e.providers.managers
  closed : ∀ v ∈ visited, v ≠ current → ∀ m, e.Reports v m → m ∈ visited ∧ m ≠ user

variable {e}

theorem reports_iff_of_ok {u m : UserId} {found : Option User}
    (h : (e.ask (.user u)).outcome = .ok found) :
    e.Reports u m ↔ found.bind (·.manager) = some m := by
  constructor
  · rintro ⟨x, hx, hm⟩
    rw [h] at hx
    cases hx
    exact hm
  · intro hm
    obtain ⟨x, rfl, hx⟩ := Option.bind_eq_some_iff.1 hm
    exact ⟨x, h, hx⟩

theorem climbed_start (user owner : UserId) : e.Climbed user owner owner [owner] := by
  refine ⟨by simp, by simp, .refl, by simp, fun v hv hne => ?_⟩
  exact absurd (List.mem_singleton.1 hv) hne

theorem Climbed.next {user owner current manager : UserId} {visited : List UserId}
    (hc : e.Climbed user owner current visited) (hr : e.Reports current manager)
    (hu : ∀ m, e.Reports current m → m = manager) (hne : manager ≠ user)
    (hv : manager ∉ visited) : e.Climbed user owner manager (manager :: visited) := by
  refine ⟨List.nodup_cons.2 ⟨hv, hc.nodup⟩, List.mem_cons_of_mem _ hc.owner_mem,
    hc.reached.tail hr, fun v h => ?_, fun v h hvm m hm => ?_⟩
  · -- the manager just met is among the managers that are known
    rcases List.mem_cons.1 h with rfl | h
    · obtain ⟨x, hx, hm⟩ := hr
      exact .inr (e.providers.manager_of_user current x v hx hm)
    · exact hc.bounded v h
  · rcases List.mem_cons.1 h with rfl | h
    · exact absurd rfl hvm
    · -- the chain went on from all others before
      by_cases hvc : v = current
      · subst hvc
        rw [hu m hm]
        exact ⟨List.mem_cons_self, hne⟩
      · obtain ⟨hmv, hmu⟩ := hc.closed v h hvc m hm
        exact ⟨List.mem_cons_of_mem _ hmv, hmu⟩

/-- A chain that cannot go on to a new manager never meets the user. -/
theorem Climbed.not_transGen {user owner current : UserId} {visited : List UserId}
    (hc : e.Climbed user owner current visited)
    (hend : ∀ m, e.Reports current m → m ∈ visited ∧ m ≠ user) :
    ¬ Relation.TransGen e.Reports owner user := by
  have hstep : ∀ v ∈ visited, ∀ m, e.Reports v m → m ∈ visited ∧ m ≠ user := by
    intro v hv m hm
    by_cases hvc : v = current
    · exact hend m (hvc ▸ hm)
    · exact hc.closed v hv hvc m hm
  have hall : ∀ x, Relation.TransGen e.Reports owner x → x ∈ visited ∧ x ≠ user := by
    intro x hx
    induction hx with
    | single h => exact hstep owner hc.owner_mem _ h
    | tail _ h ih => exact hstep _ ih.1 _ h
  exact fun h => (hall user h).2 rfl

/-- The visited users are distinct, so there are not more of them than managers and the owner. -/
theorem Climbed.length_le {user owner current : UserId} {visited : List UserId}
    (hc : e.Climbed user owner current visited) :
    visited.length ≤ e.providers.managers.length + 1 := by
  have hsub : visited ⊆ owner :: e.providers.managers := fun v hv =>
    List.mem_cons.2 (hc.bounded v hv)
  exact (List.subperm_of_subset hc.nodup hsub).length_le

theorem managesFrom_iff {user owner : UserId} (hscope : e.settings.managerScope = .transitive)
    {n : ℕ} {current : UserId} {visited : List UserId} {b : Bool}
    (hc : e.Climbed user owner current visited)
    (hn : e.providers.managers.length + 2 ≤ n + visited.length)
    (h : (e.managesFrom user n current visited).outcome = .ok b) :
    b = true ↔ Relation.TransGen e.Reports owner user := by
  -- steps cannot run out: visited users are distinct, and there are not so many managers
  induction n generalizing current visited with
  | zero => exact absurd hc.length_le (by omega)
  | succ n ih =>
    obtain ⟨found, hfound, hrest⟩ := Run.outcome_bind_eq_ok.1 h
    have hrep : ∀ m, e.Reports current m ↔ found.bind (·.manager) = some m :=
      fun m => reports_iff_of_ok hfound
    cases hm : found.bind (·.manager) with
    | none =>
      rw [hm] at hrest
      cases hrest
      have := hc.not_transGen fun m h => by simp [hrep, hm] at h
      simpa using this
    | some manager =>
      simp only [hm, hscope, reduceCtorEq, false_or] at hrest
      have hr : e.Reports current manager := (hrep manager).2 hm
      have huniq : ∀ m, e.Reports current m → m = manager := fun m h => by
        rw [hrep, hm] at h
        exact (Option.some.inj h).symm
      split at hrest
      · rename_i hmu
        subst hmu
        cases hrest
        exact iff_of_true rfl (Relation.TransGen.tail' hc.reached hr)
      · rename_i hmu
        split at hrest
        · -- the chain has met all it can reach, and not the user
          rename_i hv
          cases hrest
          have := hc.not_transGen fun m h => by rw [huniq m h]; exact ⟨hv, hmu⟩
          simpa using this
        · rename_i hv
          refine ih (hc.next hr huniq hmu hv) ?_ hrest
          rw [List.length_cons]
          omega

theorem managesFrom_of_le {user owner : UserId} {n m : ℕ} (hnm : n ≤ m) {current : UserId}
    {visited : List UserId} (hc : e.Climbed user owner current visited)
    (hn : e.providers.managers.length + 2 ≤ n + visited.length) :
    e.managesFrom user m current visited = e.managesFrom user n current visited := by
  -- both end at the same user, since neither runs out of steps
  induction n generalizing m current visited with
  | zero => exact absurd hc.length_le (by omega)
  | succ n ih =>
    obtain ⟨m, rfl⟩ : ∃ k, m = k + 1 := ⟨m - 1, by omega⟩
    refine Run.bind_congr_of_ok fun found hfound => ?_
    cases hm : found.bind (·.manager) with
    | none => rfl
    | some manager =>
      have hrep : ∀ m, e.Reports current m ↔ some manager = some m := fun m => by
        rw [reports_iff_of_ok hfound, hm]
      dsimp only
      split
      · rfl
      · rename_i hmu
        split
        · rfl
        · rename_i hstop
          refine ih (Nat.le_of_succ_le_succ hnm) (hc.next ((hrep manager).2 rfl)
            (fun m h => (Option.some.inj ((hrep m).1 h)).symm) hmu fun hv => hstop (.inr hv)) ?_
          rw [List.length_cons]
          omega

/-- **The upward chain decides who manages an owner.** -/
theorem isManagerOf_iff {user owner : UserId} {b : Bool}
    (h : (e.isManagerOf user owner).outcome = .ok b) :
    b = true ↔ e.settings.managerScope.Reaches e.Reports owner user := by
  cases hscope : e.settings.managerScope with
  | transitive =>
    refine managesFrom_iff hscope (climbed_start user owner) ?_ h
    simp
  | direct =>
    -- the first entry names the manager, and the chain goes no further
    obtain ⟨found, hfound, hrest⟩ := Run.outcome_bind_eq_ok.1 h
    rw [ManagerScope.Reaches, reports_iff_of_ok hfound]
    cases hm : found.bind (·.manager) with
    | none =>
      rw [hm] at hrest
      cases hrest
      simp
    | some manager =>
      simp only [hm, hscope, true_or, ↓reduceIte] at hrest
      split at hrest
      · rename_i hmu
        cases hrest
        simp [hmu]
      · rename_i hmu
        cases hrest
        simp [hmu]

theorem exists_ok_managesFrom (hok : ∀ u, ∃ found, (e.ask (.user u)).outcome = .ok found)
    (user : UserId) (n : ℕ) (current : UserId) (visited : List UserId) :
    ∃ b, (e.managesFrom user n current visited).outcome = .ok b := by
  induction n generalizing current visited with
  | zero => exact ⟨false, rfl⟩
  | succ n ih =>
    obtain ⟨found, hfound⟩ := hok current
    simp only [managesFrom, Run.outcome_bind_of_ok hfound]
    split
    · exact ⟨false, rfl⟩
    · split
      · exact ⟨true, rfl⟩
      · split
        · exact ⟨false, rfl⟩
        · exact ih _ _

/-! ### Downward -/

theorem lies_reportStep {m x : UserId} : Walk.Lies e.reportStep m x ↔ e.ListedUnder x m := by
  constructor
  · rintro ⟨here, next, h, hx⟩
    obtain ⟨us, hus, heq⟩ := Run.outcome_bind_eq_ok.1 h
    cases heq
    exact ⟨us, hus, hx⟩
  · rintro ⟨us, hus, hx⟩
    exact ⟨_, _, Run.outcome_bind_eq_ok.2 ⟨us, hus, rfl⟩, hx⟩

theorem leads_reportStep {m x : UserId} :
    Walk.Leads e.reportStep m x ↔
      e.settings.managerScope = .transitive ∧ e.ListedUnder x m := by
  constructor
  · rintro ⟨here, next, h, hx⟩
    obtain ⟨us, hus, heq⟩ := Run.outcome_bind_eq_ok.1 h
    cases heq
    split at hx
    · rename_i hs
      exact ⟨hs, us, hus, hx⟩
    · cases hx
  · rintro ⟨hs, us, hus, hx⟩
    refine ⟨_, _, Run.outcome_bind_eq_ok.2 ⟨us, hus, rfl⟩, ?_⟩
    rw [if_pos hs]
    exact hx

theorem mem_managedUsers_of_leads {m x : UserId} (h : Walk.Leads e.reportStep m x) :
    x ∈ e.providers.managedUsers := by
  obtain ⟨us, hus, hx⟩ := (leads_reportStep.1 h).2
  obtain ⟨u, hu, rfl⟩ := List.mem_map.1 hx
  exact e.providers.managed_of_subordinate m us hus u hu

/-- **The downward walk collects those whom a user manages.** -/
theorem mem_subordinates_iff {user : UserId} {us : List UserId}
    (h : (e.subordinates user).outcome = .ok us) (x : UserId) :
    x ∈ us ↔ e.settings.managerScope.Reaches e.ListedUnder x user := by
  obtain ⟨w, hw, heq⟩ := Run.outcome_bind_eq_ok.1 h
  cases heq
  have hend := Walk.frontier_eq_nil (fun _ _ => mem_managedUsers_of_leads) hw
  rw [mem_sortedUsers, (Walk.covers_rounds hw).mem_found_iff hend]
  simp only [List.mem_singleton, exists_eq_left, lies_reportStep]
  cases hscope : e.settings.managerScope with
  | direct =>
    -- the walk goes nowhere, so only the user's own reports are found
    have hnone : ∀ a b, ¬ Walk.Leads e.reportStep a b := fun a b hab => by
      have := (leads_reportStep.1 hab).1
      rw [hscope] at this
      cases this
    constructor
    · rintro ⟨b, hb, hbx⟩
      rcases hb.cases_tail with rfl | ⟨c, -, hcb⟩
      · exact hbx
      · exact absurd hcb (hnone c b)
    · exact fun hx => ⟨user, .refl, hx⟩
  | transitive =>
    -- the walk goes down what the chains of managers go up
    have hleads : ∀ a b, Walk.Leads e.reportStep a b ↔ e.ListedUnder b a := fun a b => by
      rw [leads_reportStep, hscope]
      simp
    constructor
    · rintro ⟨b, hb, hbx⟩
      have hup : Relation.ReflTransGen e.ListedUnder b user :=
        Relation.ReflTransGen.mono (fun a b => (hleads b a).1) _ _ (hb.swap _ _)
      exact Relation.TransGen.head' hbx hup
    · intro hx
      obtain ⟨b, hxb, hb⟩ := Relation.TransGen.head'_iff.1 hx
      exact ⟨b, Relation.ReflTransGen.mono (fun a b => (hleads a b).2) _ _ (hb.swap _ _), hxb⟩

theorem exists_ok_subordinates
    (hok : ∀ m, ∃ us, (e.ask (.subordinates m)).outcome = .ok us) (user : UserId) :
    ∃ us, (e.subordinates user).outcome = .ok us := by
  have hstep : ∀ m, ∃ r, (e.reportStep m).outcome = .ok r := by
    intro m
    obtain ⟨us, hus⟩ := hok m
    exact ⟨_, Run.outcome_bind_of_ok hus _⟩
  obtain ⟨w, hw⟩ := Walk.exists_ok_rounds hstep (e.providers.managedUsers.length + 1)
    (Walk.start [user])
  exact ⟨_, Run.outcome_bind_of_ok hw _⟩

theorem visited_of_subordinates {user : UserId} {us : List UserId}
    (h : (e.subordinates user).outcome = .ok us) :
    ∃ us, (e.ask (.subordinates user)).outcome = .ok us := by
  obtain ⟨w, hw, -⟩ := Run.outcome_bind_eq_ok.1 h
  have hend := Walk.frontier_eq_nil (fun _ _ => mem_managedUsers_of_leads) hw
  have hc := Walk.covers_rounds hw
  have hmem : user ∈ w.seen := (hc.mem_seen_iff hend).2 ⟨user, by simp, .refl⟩
  obtain ⟨r, hr⟩ := hc.visited user hmem (by simp [hend])
  obtain ⟨us, hus, -⟩ := Run.outcome_bind_eq_ok.1 hr
  exact ⟨us, hus⟩

end Engine

/-! ### In a directory -/

/-- A directory names a manager of a user. -/
def NamesManager (directory : List User) (u m : UserId) : Prop :=
  ∃ x ∈ directory, x.id = u ∧ x.manager = some m

namespace Engine

/-- An engine is told the entries of a directory, by user and by manager. -/
structure ServesDirectory (e : Engine) (directory : List User) : Prop where
  entry : ∀ id, (e.ask (.user id)).outcome = .ok (directory.find? fun u => u.id = id)
  reports : ∀ m, ∃ us, (e.ask (.subordinates m)).outcome = .ok us ∧
    ∀ u, u ∈ us ↔ u ∈ directory ∧ u.manager = some m

variable {e : Engine} {directory : List User}

theorem reports_iff_of_entry (hids : (directory.map (·.id)).Nodup)
    (he : ∀ id, (e.ask (.user id)).outcome = .ok (directory.find? fun u => u.id = id))
    (u m : UserId) : e.Reports u m ↔ NamesManager directory u m := by
  have hfind : ∀ x : User, (directory.find? fun y => y.id = u) = some x ↔
      x ∈ directory ∧ x.id = u := fun x =>
    find?_key_eq_some hids fun _ => decide_eq_true_iff
  rw [reports_iff_of_ok (he u), Option.bind_eq_some_iff]
  constructor
  · rintro ⟨x, hx, hm⟩
    obtain ⟨hmem, hid⟩ := (hfind x).1 hx
    exact ⟨x, hmem, hid, hm⟩
  · rintro ⟨x, hmem, hid, hm⟩
    exact ⟨x, (hfind x).2 ⟨hmem, hid⟩, hm⟩

theorem listedUnder_iff_of_reports
    (he : ∀ m, ∃ us, (e.ask (.subordinates m)).outcome = .ok us ∧
      ∀ u, u ∈ us ↔ u ∈ directory ∧ u.manager = some m)
    (u m : UserId) : e.ListedUnder u m ↔ NamesManager directory u m := by
  obtain ⟨us, hus, hmem⟩ := he m
  constructor
  · rintro ⟨us', hus', hu⟩
    cases hus.symm.trans hus'
    obtain ⟨x, hx, rfl⟩ := List.mem_map.1 hu
    obtain ⟨hx, hm⟩ := (hmem x).1 hx
    exact ⟨x, hx, rfl, hm⟩
  · rintro ⟨x, hx, rfl, hm⟩
    exact ⟨us, hus, List.mem_map.2 ⟨x, (hmem x).2 ⟨hx, hm⟩, rfl⟩⟩

end Engine

/-! ### In a store -/

namespace Store

/-- The directory names a manager of a user. -/
def ManagedBy (s : Store) (u m : UserId) : Prop := ∃ x ∈ s.users, x.id = u ∧ x.manager = some m

variable {s : Store} {e : Engine}

theorem Consistent.reports_iff (hs : s.Consistent)
    (he : ∀ u, (e.ask (.user u)).outcome = .ok (s.answer (.user u))) (u m : UserId) :
    e.Reports u m ↔ s.ManagedBy u m :=
  Engine.reports_iff_of_entry hs.users he u m

theorem listedUnder_iff
    (he : ∀ m, (e.ask (.subordinates m)).outcome = .ok (s.answer (.subordinates m)))
    (u m : UserId) : e.ListedUnder u m ↔ s.ManagedBy u m :=
  Engine.listedUnder_iff_of_reports
    (fun m => ⟨_, he m, fun x => by simp only [answer, List.mem_filter, decide_eq_true_eq]⟩) u m

theorem servesDirectory (settings : EngineSettings) (hp : Provider.users ∉ s.failing) :
    (s.engine settings).ServesDirectory s.users where
  entry id := engine_ask (c := .user id) hp
  reports m := ⟨_, engine_ask (c := .subordinates m) hp, fun x => by
    simp only [answer, List.mem_filter, decide_eq_true_eq]⟩

/-- Asking for a manager succeeds and gives what the directory says. -/
theorem Consistent.exists_isManagerOf (hs : s.Consistent)
    (he : ∀ u, (e.ask (.user u)).outcome = .ok (s.answer (.user u))) (user owner : UserId) :
    ∃ b, (e.isManagerOf user owner).outcome = .ok b ∧
      (b = true ↔ e.settings.managerScope.Reaches s.ManagedBy owner user) := by
  obtain ⟨b, hb⟩ := Engine.exists_ok_managesFrom (fun u => ⟨_, he u⟩) user _ owner [owner]
  refine ⟨b, hb, (Engine.isManagerOf_iff hb).trans ?_⟩
  exact ManagerScope.reaches_congr (hs.reports_iff he) owner user

theorem Consistent.exists_managesOwner (hs : s.Consistent)
    (he : ∀ u, (e.ask (.user u)).outcome = .ok (s.answer (.user u))) (caller : Caller)
    (record : Record) :
    ∃ b, (e.managesOwner caller record).outcome = .ok b ∧
      (b = true ↔ ∃ owner, record.owner = some owner ∧
        e.settings.managerScope.Reaches s.ManagedBy owner caller.userId) := by
  cases ho : record.owner with
  | none => exact ⟨false, by simp [Engine.managesOwner, ho], by simp⟩
  | some owner =>
    obtain ⟨b, hb, hiff⟩ := hs.exists_isManagerOf he caller.userId owner
    exact ⟨b, by simp [Engine.managesOwner, ho, hb], by simp [hiff]⟩

theorem mem_subordinates_iff
    (he : ∀ m, (e.ask (.subordinates m)).outcome = .ok (s.answer (.subordinates m)))
    {user : UserId} {us : List UserId} (h : (e.subordinates user).outcome = .ok us) (x : UserId) :
    x ∈ us ↔ e.settings.managerScope.Reaches s.ManagedBy x user := by
  rw [Engine.mem_subordinates_iff h]
  exact ManagerScope.reaches_congr (listedUnder_iff he) x user

theorem users_of_subordinates {settings : EngineSettings} {user : UserId} {us : List UserId}
    (h : ((s.engine settings).subordinates user).outcome = .ok us) :
    Provider.users ∉ s.failing := by
  obtain ⟨_, hask⟩ := Engine.visited_of_subordinates h
  exact (engine_ask_eq_ok.1 hask).1

end Store

/-! ### The walks against each other -/

namespace Engine

/-- **The two walks are converse.**  Over a directory where every user has one entry, whatever
cycles it has and whoever is missing from it, a user is found among the managers above an owner
exactly when the owner is found among the reports below the user.  That is when the entry of the
owner names the user, or where managers reach further, when a chain of one or more entries leads
from the owner to the user. -/
theorem isManagerOf_is_converse (directory : List User) (hids : (directory.map (·.id)).Nodup)
    (e : Engine) (h : e.ServesDirectory directory) (user owner : UserId) :
    ∃ manages reports, (e.isManagerOf user owner).outcome = .ok manages ∧
      (e.subordinates user).outcome = .ok reports ∧
      (manages = true ↔ owner ∈ reports) ∧
      (e.settings.managerScope = .direct →
        (manages = true ↔ NamesManager directory owner user)) ∧
      (e.settings.managerScope = .transitive →
        (manages = true ↔ Relation.TransGen (NamesManager directory) owner user)) := by
  obtain ⟨manages, hmanages⟩ := exists_ok_managesFrom (fun u => ⟨_, h.entry u⟩) user
    (e.providers.managers.length + 1) owner [owner]
  obtain ⟨reports, hreports⟩ := exists_ok_subordinates
    (fun m => (h.reports m).imp fun _ hus => hus.1) user
  -- each is what the directory says, so they agree with each other
  have hup : manages = true ↔
      e.settings.managerScope.Reaches (NamesManager directory) owner user :=
    (isManagerOf_iff hmanages).trans
      (ManagerScope.reaches_congr (reports_iff_of_entry hids h.entry) owner user)
  have hdown : owner ∈ reports ↔
      e.settings.managerScope.Reaches (NamesManager directory) owner user :=
    (mem_subordinates_iff hreports owner).trans
      (ManagerScope.reaches_congr (listedUnder_iff_of_reports h.reports) owner user)
  refine ⟨manages, reports, hmanages, hreports, hup.trans hdown.symm, fun hscope => ?_,
    fun hscope => ?_⟩
  · rw [hup, hscope]
    rfl
  · rw [hup, hscope]
    rfl

/-- Two users who manage each other, one who manages himself, and one whose manager has no entry. -/
def circle : List User :=
  [⟨⟨"ann"⟩, none, some ⟨"bob"⟩, none⟩, ⟨⟨"bob"⟩, none, some ⟨"ann"⟩, none⟩,
    ⟨⟨"cid"⟩, none, some ⟨"cid"⟩, none⟩, ⟨⟨"dan"⟩, none, some ⟨"eve"⟩, none⟩]

/-- In a circle a user is above and below themselves. -/
theorem ann_manages_herself :
    (circle.map (·.id)).Nodup ∧
      (Store.engine { users := circle } ⟨10, .transitive⟩).ServesDirectory circle ∧
      Relation.TransGen (NamesManager circle) ⟨"ann"⟩ ⟨"ann"⟩ ∧
      ∃ reports, ((Store.engine { users := circle } ⟨10, .transitive⟩).subordinates
        ⟨"ann"⟩).outcome = .ok reports ∧ ⟨"ann"⟩ ∈ reports := by
  have hids : (circle.map (·.id)).Nodup := by decide
  have hserves : (Store.engine { users := circle } ⟨10, .transitive⟩).ServesDirectory circle :=
    Store.servesDirectory _ List.not_mem_nil
  obtain ⟨manages, reports, hmanages, hreports, hconverse, -, hchain⟩ :=
    isManagerOf_is_converse circle hids _ hserves ⟨"ann"⟩ ⟨"ann"⟩
  have hup : ((Store.engine { users := circle } ⟨10, .transitive⟩).isManagerOf ⟨"ann"⟩
      ⟨"ann"⟩).outcome = .ok true := rfl
  cases hmanages.symm.trans hup
  exact ⟨hids, hserves, (hchain rfl).1 rfl, reports, hreports, hconverse.1 rfl⟩

end Engine

end RecordAccess
