import RecordAccess.Proofs.Closures

/-!
# What a store recalls of its history

A store forgets nothing that its history says: of what is replaced by key the last counts
(`latest`), of rules and shares all do, in their order, and memberships are a set.  `Recalls` says
it of each question in terms of the history alone.  One change keeps a store and its history in
step (`Store.Recorded.apply`), so a whole history does (`Store.recorded_ofHistory`), and a provider
answers what the history says, unless the last that was done to it was to make it fail
(`Store.providers_recall_history`).
-/

namespace RecordAccess

/-! ### What changes put in -/

namespace Mutation

/-- The permission that a change gives a user on a collection. -/
def permissionFor? (user : UserId) (collection : CollectionId) :
    Mutation → Option ObjectPermission
  | .permission u c p => if (u, c) = (user, collection) then some p else none
  | _ => none

/-- The permission that a change gives to those who have no own one. -/
def defaultPermission? : Mutation → Option ObjectPermission
  | .defaultPermission p => some p
  | _ => none

/-- The default that a change gives a collection in a tenant. -/
def orgWideDefaultFor? (tenant : TenantId) (collection : CollectionId) :
    Mutation → Option OrgWideDefault
  | .orgWideDefault d => if (d.tenant, d.collection) = (tenant, collection) then some d else none
  | _ => none

/-- The rule that a change puts in. -/
def rule? : Mutation → Option SharingRule
  | .rule r => some r
  | _ => none

/-- The share that a change puts in. -/
def share? : Mutation → Option RecordShare
  | .recordShare share => some share
  | _ => none

/-- The user with an id that a change puts in. -/
def userWith? (id : UserId) : Mutation → Option User
  | .user u => if u.id = id then some u else none
  | _ => none

/-- Whether a provider fails after a change that makes it fail or restores it. -/
def fails? (provider : Provider) : Mutation → Option Bool
  | .failProvider p => if p = provider then some true else none
  | .restoreProvider p => if p = provider then some false else none
  | _ => none

end Mutation

/-- The last of what the changes of a history give. -/
def latest {α : Type} (f : Mutation → Option α) (history : List Mutation) : Option α :=
  (history.filterMap f).getLast?

theorem latest_concat {α : Type} (f : Mutation → Option α) (history : List Mutation)
    (m : Mutation) : latest f (history ++ [m]) = (f m).or (latest f history) := by
  simp only [latest, List.filterMap_append, List.getLast?_append]
  cases hm : f m <;> simp [hm]

/-- The last that was done to a provider was to make it fail. -/
def Fails (history : List Mutation) (provider : Provider) : Prop :=
  latest (Mutation.fails? provider) history = some true

instance (history : List Mutation) (provider : Provider) : Decidable (Fails history provider) :=
  inferInstanceAs (Decidable (_ = _))

/-- What a history says in answer to a question. -/
def Recalls (history : List Mutation) : (c : Query) → c.Answer → Prop
  | .objectPermission user collection, p =>
    p = ((latest (Mutation.permissionFor? user collection) history).or
      (latest Mutation.defaultPermission? history)).getD .crud
  | .orgWideDefault tenant collection, d =>
    d = latest (Mutation.orgWideDefaultFor? tenant collection) history
  | .activeRules tenant collection, rules =>
    rules = (history.filterMap Mutation.rule?).filter fun r =>
      r.tenant = tenant ∧ r.collection = collection ∧ r.active = true
  | .directShares collection record user, shares =>
    shares = (history.filterMap Mutation.share?).filter fun share =>
      share.collection = collection ∧ share.record = record ∧ share.sharedWith = .user user
  | .groupShares collection record groups, shares =>
    shares = (history.filterMap Mutation.share?).filter fun share =>
      share.collection = collection ∧ share.record = record ∧
        ∃ g ∈ groups, share.sharedWith = .group g
  | .collectionShares tenant collection, shares =>
    shares.Perm ((history.filterMap Mutation.share?).filter fun share =>
      share.collection = collection ∧ share.tenant = tenant)
  | .user id, found => found = latest (Mutation.userWith? id) history
  | .subordinates manager, users => users.Nodup ∧ ∀ u, u ∈ users ↔
    latest (Mutation.userWith? u.id) history = some u ∧ u.manager = some manager
  | .roleHolders tenant role, ids => ids.Nodup ∧ ∀ id, id ∈ ids ↔
    ∃ u, latest (Mutation.userWith? id) history = some u ∧ u.hasRoleIn role tenant = true
  | .directGroups user, groups => groups.Nodup ∧ ∀ g, g ∈ groups ↔
    .membership (.ofUser g user) ∈ history
  | .parentGroups group, edges => edges.Nodup ∧ ∀ m, m ∈ edges ↔
    ∃ parent, m = .nested parent group ∧ .membership (.nested parent group) ∈ history
  | .directUsers group, users => users.Nodup ∧ ∀ u, u ∈ users ↔
    .membership (.ofUser group u) ∈ history
  | .childGroups group, groups => groups.Nodup ∧ ∀ g, g ∈ groups ↔
    .membership (.nested group g) ∈ history

namespace Store

variable {s : Store} {history : List Mutation}

/-! ### One change -/

theorem lookup_permissions_apply (s : Store) (m : Mutation) (user : UserId)
    (collection : CollectionId) :
    (s.apply m).permissions.lookup (user, collection) =
      (m.permissionFor? user collection).or (s.permissions.lookup (user, collection)) := by
  cases m with
  | permission u c p =>
    have hfind := find?_put Prod.fst (a := ((u, c), p)) (k := (user, collection))
      (p := fun e => decide (e.1 = (user, collection))) (l := s.permissions)
      fun _ => decide_eq_true_iff
    simp only [apply, lookup_eq_map_find?]
    rw [hfind, Mutation.permissionFor?]
    split <;> rfl
  | _ => rfl

theorem defaultPermission_apply (s : Store) (m : Mutation) :
    (s.apply m).defaultPermission = m.defaultPermission?.getD s.defaultPermission := by
  cases m <;> rfl

theorem answer_orgWideDefault_apply (s : Store) (m : Mutation) (tenant : TenantId)
    (collection : CollectionId) :
    (s.apply m).answer (.orgWideDefault tenant collection) =
      (m.orgWideDefaultFor? tenant collection).or
        (s.answer (.orgWideDefault tenant collection)) := by
  cases m with
  | orgWideDefault d =>
    have hput := find?_put (fun d : OrgWideDefault => (d.tenant, d.collection))
      (k := (tenant, collection)) (a := d) (l := s.orgWideDefaults)
      (p := fun d => d.tenant = tenant && d.collection = collection) fun d => by simp
    simp only [answer, apply]
    rw [hput, Mutation.orgWideDefaultFor?]
    split <;> rfl
  | _ => rfl

theorem answer_user_apply (s : Store) (m : Mutation) (id : UserId) :
    (s.apply m).answer (.user id) = (m.userWith? id).or (s.answer (.user id)) := by
  cases m with
  | user u =>
    have hput := find?_put (fun u : User => u.id) (k := id) (a := u) (l := s.users)
      fun u => decide_eq_true_iff (p := u.id = id)
    simp only [answer, apply]
    rw [hput, Mutation.userWith?]
    split <;> rfl
  | _ => rfl

theorem rules_apply (s : Store) (m : Mutation) : (s.apply m).rules = s.rules ++ m.rule?.toList := by
  cases m with
  | rule r => rfl
  | _ => exact (List.append_nil _).symm

theorem shares_apply (s : Store) (m : Mutation) :
    (s.apply m).shares = s.shares ++ m.share?.toList := by
  cases m with
  | recordShare share => rfl
  | _ => exact (List.append_nil _).symm

theorem mem_memberships_apply {m : Mutation} {x : Membership} :
    x ∈ (s.apply m).memberships ↔ x ∈ s.memberships ∨ m = .membership x := by
  cases m with
  | membership y =>
    simp only [apply, Mutation.membership.injEq]
    split
    · exact ⟨.inl, fun h => h.elim id fun h => h ▸ ‹_›⟩
    · simp [eq_comm]
  | _ => simp [apply]

theorem nodup_memberships_apply (h : s.memberships.Nodup) (m : Mutation) :
    (s.apply m).memberships.Nodup := by
  cases m with
  | membership y =>
    simp only [apply]
    split
    · exact h
    · rw [← List.concat_eq_append]
      exact h.concat ‹_›
  | _ => exact h

theorem mem_failing_apply {m : Mutation} {p : Provider} :
    p ∈ (s.apply m).failing ↔ (m.fails? p).getD (p ∈ s.failing) = true := by
  cases m with
  | failProvider q =>
    by_cases hq : q = p
    · simp [apply, Mutation.fails?, hq]
    · simp [apply, Mutation.fails?, hq, Ne.symm hq]
  | restoreProvider q =>
    by_cases hq : q = p
    · simp [apply, Mutation.fails?, hq]
    · simp [apply, Mutation.fails?, hq, Ne.symm hq]
  | _ => simp [apply, Mutation.fails?]

/-! ### Whole histories -/

/-- A store holds what its history put in. -/
structure Recorded (s : Store) (history : List Mutation) : Prop where
  consistent : s.Consistent
  permissions : ∀ user collection, s.permissions.lookup (user, collection) =
    latest (Mutation.permissionFor? user collection) history
  defaultPermission : s.defaultPermission = (latest Mutation.defaultPermission? history).getD .crud
  orgWideDefaults : ∀ tenant collection, s.answer (.orgWideDefault tenant collection) =
    latest (Mutation.orgWideDefaultFor? tenant collection) history
  rules : s.rules = history.filterMap Mutation.rule?
  shares : s.shares = history.filterMap Mutation.share?
  users : ∀ id, s.answer (.user id) = latest (Mutation.userWith? id) history
  memberships : ∀ m, m ∈ s.memberships ↔ .membership m ∈ history
  distinct : s.memberships.Nodup
  failing : ∀ p, p ∈ s.failing ↔ Fails history p

theorem recorded_empty : Recorded empty [] where
  consistent := consistent_ofHistory []
  permissions _ _ := rfl
  defaultPermission := rfl
  orgWideDefaults _ _ := rfl
  rules := rfl
  shares := rfl
  users _ := rfl
  memberships m := by simp [empty]
  distinct := List.nodup_nil
  failing p := by simp [empty, Fails, latest]

/-- **A change keeps a store and its history in step.** -/
theorem Recorded.apply (h : s.Recorded history) (m : Mutation) :
    (s.apply m).Recorded (history ++ [m]) where
  consistent := h.consistent.apply m
  permissions user collection := by
    rw [lookup_permissions_apply, latest_concat, h.permissions]
  defaultPermission := by
    rw [defaultPermission_apply, latest_concat, h.defaultPermission]
    cases m.defaultPermission? <;> rfl
  orgWideDefaults tenant collection := by
    rw [answer_orgWideDefault_apply, latest_concat, h.orgWideDefaults]
  rules := by
    rw [rules_apply, h.rules, List.filterMap_append]
    cases hm : m.rule? <;> simp [hm]
  shares := by
    rw [shares_apply, h.shares, List.filterMap_append]
    cases hm : m.share? <;> simp [hm]
  users id := by
    rw [answer_user_apply, latest_concat, h.users]
  memberships x := by
    rw [mem_memberships_apply, h.memberships, List.mem_append, List.mem_singleton,
      eq_comm (a := m)]
  distinct := nodup_memberships_apply h.distinct m
  failing p := by
    rw [mem_failing_apply, Fails, latest_concat]
    cases m.fails? p with
    | some b => simp
    | none => simpa [Fails] using h.failing p

theorem Recorded.applyAll (h : s.Recorded history) (more : List Mutation) :
    (s.applyAll more).Recorded (history ++ more) := by
  induction more generalizing s history with
  | nil => rwa [List.append_nil]
  | cons m more ih =>
    have hrest := ih (h.apply m)
    rwa [List.append_assoc, List.singleton_append] at hrest

/-- A history leads to a store that holds what the history put in. -/
theorem recorded_ofHistory (history : List Mutation) : (ofHistory history).Recorded history :=
  recorded_empty.applyAll history

/-! ### Answers -/

namespace Recorded

variable (h : s.Recorded history)

include h

theorem mem_users {u : User} :
    u ∈ s.users ↔ latest (Mutation.userWith? u.id) history = some u := by
  rw [← h.users, h.consistent.find_user, and_iff_left rfl]

theorem nodup_holds {α : Type} (type : MemberType) (id : String) {f : Membership → α}
    (hf : ∀ g g', f ⟨g, type, id⟩ = f ⟨g', type, id⟩ → g = g') :
    ((s.memberships.filter fun m => m.holds type id).map f).Nodup := by
  refine (h.distinct.filter _).map_on ?_
  rintro ⟨g, t, i⟩ hm ⟨g', t', i'⟩ hm' heq
  obtain ⟨-, hm⟩ := List.mem_filter.1 hm
  obtain ⟨-, hm'⟩ := List.mem_filter.1 hm'
  simp only [Membership.holds, Bool.and_eq_true, decide_eq_true_eq] at hm hm'
  obtain ⟨rfl, rfl⟩ := hm
  obtain ⟨rfl, rfl⟩ := hm'
  rw [hf g g' heq]

theorem nodup_membersOf {kind : IdKind} (g : GroupId) (type : MemberType) :
    ((s.membersOf g type).map (Id.mk : String → Id kind)).Nodup := by
  refine List.Nodup.map (fun _ _ => congrArg Id.text) ?_
  refine (h.distinct.filter _).map_on ?_
  rintro ⟨g, t, i⟩ hm ⟨g', t', i'⟩ hm' heq
  obtain ⟨-, hm⟩ := List.mem_filter.1 hm
  obtain ⟨-, hm'⟩ := List.mem_filter.1 hm'
  simp only [Bool.and_eq_true, decide_eq_true_eq] at hm hm'
  obtain ⟨rfl, rfl⟩ := hm
  obtain ⟨rfl, rfl⟩ := hm'
  rw [show i = i' from heq]

theorem mem_members {kind : IdKind} {g : GroupId} {type : MemberType} {i : Id kind} :
    i ∈ (s.membersOf g type).map Id.mk ↔ .membership ⟨g, type, i.text⟩ ∈ history := by
  rw [mem_map_mk, mem_membersOf, h.memberships]

/-- **A store answers what its history says.** -/
theorem recalls (c : Query) : Recalls history c (s.answer c) := by
  -- single entries are what was put in last, lists keep the order of the history
  cases c with
  | objectPermission user collection =>
    simp only [Recalls, answer, h.permissions, h.defaultPermission]
    cases latest (Mutation.permissionFor? user collection) history <;> rfl
  | orgWideDefault tenant collection => exact h.orgWideDefaults tenant collection
  | activeRules tenant collection =>
    simp only [Recalls, answer, h.rules]
    exact List.filter_congr fun r _ => by simp [Bool.and_assoc]
  | directShares collection record user =>
    simp only [Recalls, answer, h.shares]
    exact List.filter_congr fun share _ => by simp [Bool.and_assoc]
  | groupShares collection record groups =>
    simp only [Recalls, answer, h.shares]
    refine List.filter_congr fun share _ => ?_
    cases share.sharedWith <;> simp [Bool.and_assoc]
  | collectionShares tenant collection =>
    simp only [Recalls, answer, h.shares]
    refine .of_eq (List.filter_congr fun share _ => by simp)
  | user id => exact h.users id
  | subordinates manager =>
    refine ⟨(h.consistent.users.of_map _).filter _, fun u => ?_⟩
    simp only [answer, List.mem_filter, decide_eq_true_eq, h.mem_users]
  | roleHolders tenant role =>
    refine ⟨h.consistent.users.sublist (List.filter_sublist.map _), fun id => ?_⟩
    simp only [answer, List.mem_map, List.mem_filter, h.mem_users]
    constructor
    · rintro ⟨u, ⟨hu, hrole⟩, rfl⟩
      exact ⟨u, hu, hrole⟩
    · rintro ⟨u, hu, hrole⟩
      rw [← h.users] at hu
      obtain ⟨hmem, rfl⟩ := h.consistent.find_user.1 hu
      exact ⟨u, ⟨h.mem_users.1 hmem, hrole⟩, rfl⟩
  | directGroups user =>
    -- from here on, memberships: each is held once, whichever side is asked about
    refine ⟨h.nodup_holds .user user.text fun _ _ => id, fun g => ?_⟩
    rw [← h.memberships]
    exact mem_map_group
  | parentGroups group =>
    refine ⟨h.nodup_holds .group group.text fun _ _ heq => congrArg Membership.group heq,
      fun m => ?_⟩
    simp only [answer, ← h.memberships]
    constructor
    · intro hm
      obtain ⟨x, hx, rfl⟩ := List.mem_map.1 hm
      exact ⟨x.group, rfl, mem_map_group.1 (List.mem_map.2 ⟨x, hx, rfl⟩)⟩
    · rintro ⟨parent, rfl, hp⟩
      obtain ⟨x, hx, rfl⟩ := List.mem_map.1 (mem_map_group.2 hp)
      exact List.mem_map.2 ⟨x, hx, rfl⟩
  | directUsers group => exact ⟨h.nodup_membersOf group .user, fun _ => h.mem_members⟩
  | childGroups group => exact ⟨h.nodup_membersOf group .group, fun _ => h.mem_members⟩

end Recorded

/-- **The providers are functions of the history.**  Whatever is put into an empty store and
whatever is made to fail, a provider fails exactly when the last that was done to it was to make it
fail, and otherwise answers every question with what the history says.  What members and groups are
answered is the same the other way round. -/
theorem providers_recall_history (history : List Mutation) :
    (∀ c : Query, if Fails history c.provider then
        ((ofHistory history).providers.ask c).outcome =
          .error (.providerUnavailable c.provider.name "injected failure")
      else ∃ a, ((ofHistory history).providers.ask c).outcome = .ok a ∧ Recalls history c a) ∧
    (∀ (user : UserId) (group : GroupId) (groups : List GroupId) (users : List UserId),
      ((ofHistory history).providers.ask (.directGroups user)).outcome = .ok groups →
      ((ofHistory history).providers.ask (.directUsers group)).outcome = .ok users →
        (group ∈ groups ↔ user ∈ users)) ∧
    ∀ (parent child : GroupId) (edges : List Membership) (children : List GroupId),
      ((ofHistory history).providers.ask (.parentGroups child)).outcome = .ok edges →
      ((ofHistory history).providers.ask (.childGroups parent)).outcome = .ok children →
        (.nested parent child ∈ edges ↔ child ∈ children) := by
  have h := recorded_ofHistory history
  refine ⟨fun c => ?_, fun user group groups users hup hdown => ?_,
    fun parent child edges children hup hdown => ?_⟩
  · split
    · rename_i hfails
      exact ask_of_failing ((h.failing _).2 hfails)
    · rename_i hanswers
      exact ⟨_, ask_eq_ok.2 ⟨mt (h.failing _).1 hanswers, rfl⟩, h.recalls c⟩
  · obtain ⟨-, rfl⟩ := ask_eq_ok.1 hup
    obtain ⟨-, rfl⟩ := ask_eq_ok.1 hdown
    exact ((h.recalls (.directGroups user)).2 group).trans
      ((h.recalls (.directUsers group)).2 user).symm
  · obtain ⟨-, rfl⟩ := ask_eq_ok.1 hup
    obtain ⟨-, rfl⟩ := ask_eq_ok.1 hdown
    -- a question upward is answered with the nesting itself
    rw [(h.recalls (.childGroups parent)).2, (h.recalls (.parentGroups child)).2]
    constructor
    · rintro ⟨parent', heq, hmem⟩
      rwa [heq]
    · exact fun hmem => ⟨parent, rfl, hmem⟩

/-- A user is put in again under another manager, has the id of a group, and is put into that group.
The users fail for a while, the sharing data for good. -/
def movedHistory : List Mutation :=
  [.user ⟨⟨"x"⟩, none, some ⟨"ann"⟩, none⟩, .failProvider .users,
    .membership (.nested ⟨"g"⟩ ⟨"x"⟩), .user ⟨⟨"x"⟩, none, some ⟨"bob"⟩, none⟩,
    .membership (.ofUser ⟨"x"⟩ ⟨"x"⟩), .restoreProvider .users, .failProvider .sharing]

/-- The user has left the first manager, and is in the group with their own id only. -/
theorem moved_user_recalled :
    ((ofHistory movedHistory).providers.ask (.activeRules ⟨"t"⟩ ⟨"c"⟩)).outcome =
        .error (.providerUnavailable "sharing" "injected failure") ∧
      ((ofHistory movedHistory).providers.ask (.subordinates ⟨"ann"⟩)).outcome = .ok [] ∧
      ∃ groups, ((ofHistory movedHistory).providers.ask (.directGroups ⟨"x"⟩)).outcome =
        .ok groups ∧ ∀ g, g ∈ groups ↔ g = ⟨"x"⟩ := by
  obtain ⟨h, -⟩ := providers_recall_history movedHistory
  have hrules := h (.activeRules ⟨"t"⟩ ⟨"c"⟩)
  have husers := h (.subordinates ⟨"ann"⟩)
  have hgroups := h (.directGroups ⟨"x"⟩)
  rw [if_pos (by decide)] at hrules
  rw [if_neg (by decide)] at husers hgroups
  obtain ⟨us, hus, -, hmem⟩ := husers
  obtain ⟨gs, hgs, -, hin⟩ := hgroups
  have hnone : us = [] := by
    refine List.eq_nil_iff_forall_not_mem.2 fun u hu => ?_
    obtain ⟨hlast, hmanager⟩ := (hmem u).1 hu
    -- what was put in last under the id has another manager
    by_cases hid : (⟨"x"⟩ : UserId) = u.id
    · rw [← hid] at hlast
      cases Option.some.inj hlast
      exact absurd hmanager (by decide)
    · simp [latest, movedHistory, List.filterMap, Mutation.userWith?, hid] at hlast
  refine ⟨hrules, hnone ▸ hus, gs, hgs, fun g => (hin g).trans ?_⟩
  simp [movedHistory, Membership.ofUser, Membership.nested]

end Store

end RecordAccess
