import Mathlib.Data.List.Sort
import Mathlib.Logic.Equiv.Basic
import RecordAccess.Proofs.Clauses

/-!
# Ids are opaque

A `Renaming` gives the ids of each kind other texts, and different ids different texts; what it does
to one kind has nothing to do with what it does to another.  Renaming all that is put into a store
renames what is in it (`Store.ofHistory_rename`), so groups, managers and populations are the images
of what they were.  A renamed request is therefore decided as it was, and its filter is the renamed
filter (`Store.ids_are_opaque`): a user and a group that share a text are as different as any two
ids.
-/

namespace RecordAccess

/-! ### Renamings -/

/-- Other texts for the ids of each kind, different ones for different ids of a kind. -/
structure Renaming where
  toFun : {kind : IdKind} → Id kind → Id kind
  injective : ∀ kind, Function.Injective (@toFun kind)

variable (ρ : Renaming)

/-- The id under its other text. -/
def Id.rename {kind : IdKind} (a : Id kind) : Id kind := ρ.toFun a

/-- The other text of what is the text of an id of a kind. -/
def Renaming.text (kind : IdKind) (t : String) : String := ((⟨t⟩ : Id kind).rename ρ).text

variable {ρ}

theorem Id.rename_injective {kind : IdKind} : Function.Injective (@Id.rename ρ kind) :=
  ρ.injective kind

@[simp] theorem Id.rename_inj {kind : IdKind} {a b : Id kind} :
    a.rename ρ = b.rename ρ ↔ a = b :=
  Id.rename_injective.eq_iff

theorem Renaming.text_injective (kind : IdKind) : Function.Injective (ρ.text kind) := by
  intro t u h
  exact congrArg Id.text (Id.rename_inj.1 (Id.text_inj.1 h))

@[simp] theorem Renaming.text_text {kind : IdKind} (a : Id kind) :
    ρ.text kind a.text = (a.rename ρ).text := rfl

/-! ### Renamed data -/

variable (ρ)

/-- The principal of the same kind under its other id. -/
def Principal.rename : Principal → Principal
  | .user id => .user (id.rename ρ)
  | .group id => .group (id.rename ρ)
  | .queue id => .queue (id.rename ρ)
  | .role id => .role (id.rename ρ)

/-- The user or group shared with, under its other id. -/
def ShareSubject.rename : ShareSubject → ShareSubject
  | .user id => .user (id.rename ρ)
  | .group id => .group (id.rename ρ)

/-- Criteria are not about ids. -/
def RuleKind.rename : RuleKind → RuleKind
  | .ownerBased sharedFrom => .ownerBased (sharedFrom.rename ρ)
  | .criteriaBased criteria => .criteriaBased criteria

/-- All ids of the rule are renamed.  Its access and whether it is active stay. -/
def SharingRule.rename (r : SharingRule) : SharingRule :=
  { r with
    tenant := r.tenant.rename ρ
    collection := r.collection.rename ρ
    kind := r.kind.rename ρ
    sharedTo := r.sharedTo.rename ρ }

/-- All ids of the share are renamed.  Its level and its reason are not about ids. -/
def RecordShare.rename (s : RecordShare) : RecordShare :=
  { s with
    tenant := s.tenant.rename ρ
    collection := s.collection.rename ρ
    record := s.record.rename ρ
    sharedWith := s.sharedWith.rename ρ }

/-- The same level for the renamed collection of the renamed tenant. -/
def OrgWideDefault.rename (d : OrgWideDefault) : OrgWideDefault :=
  { d with tenant := d.tenant.rename ρ, collection := d.collection.rename ρ }

/-- The manager is renamed as a user and the role as a role, so the directory keeps its shape. -/
def User.rename (u : User) : User :=
  ⟨u.id.rename ρ, u.tenant.map (Id.rename ρ), u.manager.map (Id.rename ρ),
    u.role.map (Id.rename ρ)⟩

/-- The kind of id that a member of a type has. -/
def MemberType.kind : MemberType → IdKind
  | .user => .user
  | .group => .group

/-- A member is renamed as what it is. -/
def Membership.rename (m : Membership) : Membership :=
  ⟨m.group.rename ρ, m.memberType, ρ.text m.memberType.kind m.member⟩

/-- The groups stand in the order of their new texts, as a resolved subject lists them. -/
def AccessSubject.rename (s : AccessSubject) : AccessSubject :=
  ⟨s.user.rename ρ, s.role.map (Id.rename ρ), s.tenant.map (Id.rename ρ),
    sortedGroups (s.groups.map (Id.rename ρ))⟩

/-- The record under its other id, in its renamed place and with its renamed owner. -/
def Record.rename (r : Record) : Record :=
  ⟨r.tenant.rename ρ, r.collection.rename ρ, r.id.rename ρ, r.owner.map (Id.rename ρ)⟩

/-- The kind of ids that a column holds. -/
def FilterColumn.kind : FilterColumn → IdKind
  | .id => .record
  | .owner => .user

/-- The values are renamed as what the column holds, and sorted again. -/
def FilterClause.rename (c : FilterClause) : FilterClause :=
  { c with values := (c.values.map (ρ.text c.column.kind)).mergeSort }

/-- The clauses keep their order, since column and operator do. -/
def SharingPredicate.rename (p : SharingPredicate) : SharingPredicate :=
  ⟨p.clauses.map (FilterClause.rename ρ)⟩

/-- Everything that was put in is renamed.  Which ports fail is not about ids. -/
def Store.rename (s : Store) : Store :=
  { s with
    permissions := s.permissions.map fun e => ((e.1.1.rename ρ, e.1.2.rename ρ), e.2)
    orgWideDefaults := s.orgWideDefaults.map (OrgWideDefault.rename ρ)
    rules := s.rules.map (SharingRule.rename ρ)
    shares := s.shares.map (RecordShare.rename ρ)
    users := s.users.map (User.rename ρ)
    memberships := s.memberships.map (Membership.rename ρ) }

/-- The change that puts in the renamed entry, or breaks and mends the same port. -/
def Mutation.rename : Mutation → Mutation
  | .permission u c p => .permission (u.rename ρ) (c.rename ρ) p
  | .defaultPermission p => .defaultPermission p
  | .orgWideDefault d => .orgWideDefault (d.rename ρ)
  | .rule r => .rule (r.rename ρ)
  | .recordShare s => .recordShare (s.rename ρ)
  | .user u => .user (u.rename ρ)
  | .membership m => .membership (m.rename ρ)
  | .failProvider p => .failProvider p
  | .restoreProvider p => .restoreProvider p

variable {ρ}

@[simp] theorem SharingRule.rename_criteriaBased_iff {r : SharingRule} {criteria : Json} :
    (r.rename ρ).kind = .criteriaBased criteria ↔ r.kind = .criteriaBased criteria := by
  unfold rename
  cases r.kind <;> simp [RuleKind.rename]

@[simp] theorem SharingRule.rename_ownerBased_iff {r : SharingRule} {p : Principal} :
    (r.rename ρ).kind = .ownerBased p ↔
      ∃ sharedFrom, r.kind = .ownerBased sharedFrom ∧ sharedFrom.rename ρ = p := by
  unfold rename
  cases r.kind <;> simp [RuleKind.rename]

theorem Membership.rename_injective : Function.Injective (Membership.rename ρ) := by
  rintro ⟨g, type, member⟩ ⟨g', type', member'⟩ h
  simp only [Membership.rename, Membership.mk.injEq, Id.rename_inj] at h
  obtain ⟨rfl, rfl, hmember⟩ := h
  rw [ρ.text_injective _ hmember]

/-! ### Renamed histories -/

/-- What is put in under a key may be renamed before or after, if keys stay as different as they
were. -/
theorem map_put {α β κ κ' : Type} [DecidableEq κ] [DecidableEq κ'] (key : α → κ) (key' : β → κ')
    {f : α → β} (hkey : ∀ a b, key' (f a) = key' (f b) ↔ key a = key b) (a : α) (l : List α) :
    (a :: l.filter fun e => key e ≠ key a).map f =
      f a :: (l.map f).filter fun e => key' e ≠ key' (f a) := by
  rw [List.map_cons, List.filter_map]
  congr 3
  funext e
  simp only [Function.comp_apply, ne_eq, hkey]

namespace Store

variable {s : Store}

theorem apply_rename (s : Store) (m : Mutation) :
    (s.apply m).rename ρ = (s.rename ρ).apply (m.rename ρ) := by
  -- what is put in replaces what has its key, and renaming keeps keys apart
  cases m with
  | permission user collection p =>
    have hput := map_put (fun e : (UserId × CollectionId) × ObjectPermission => e.1)
      (fun e : (UserId × CollectionId) × ObjectPermission => e.1)
      (f := fun e => ((e.1.1.rename ρ, e.1.2.rename ρ), e.2)) (by simp [Prod.ext_iff])
      ((user, collection), p) s.permissions
    simp only [rename, apply, Mutation.rename, hput]
  | orgWideDefault d =>
    have hput := map_put (fun e : OrgWideDefault => (e.tenant, e.collection))
      (fun e : OrgWideDefault => (e.tenant, e.collection)) (f := OrgWideDefault.rename ρ)
      (by simp [OrgWideDefault.rename]) d s.orgWideDefaults
    simp only [rename, apply, Mutation.rename, hput]
  | rule r => simp [rename, apply, Mutation.rename]
  | recordShare share => simp [rename, apply, Mutation.rename]
  | user u =>
    have hput := map_put (fun e : User => e.id) (fun e : User => e.id) (f := User.rename ρ)
      (by simp [User.rename]) u s.users
    simp only [rename, apply, Mutation.rename, hput]
  | membership m =>
    have hmem : m.rename ρ ∈ s.memberships.map (Membership.rename ρ) ↔ m ∈ s.memberships :=
      List.mem_map_of_injective Membership.rename_injective
    simp only [rename, apply, Mutation.rename, hmem]
    split <;> simp
  | _ => rfl

theorem applyAll_rename (s : Store) (history : List Mutation) :
    (s.applyAll history).rename ρ = (s.rename ρ).applyAll (history.map (Mutation.rename ρ)) := by
  induction history generalizing s with
  | nil => rfl
  | cons m history ih => exact (ih (s.apply m)).trans (by rw [apply_rename]; rfl)

/-- **A renamed history leads to the renamed store.** -/
theorem ofHistory_rename (history : List Mutation) :
    ofHistory (history.map (Mutation.rename ρ)) = (ofHistory history).rename ρ :=
  (applyAll_rename empty history).symm

theorem Consistent.rename (hs : s.Consistent) : (s.rename ρ).Consistent := by
  have hids : (s.users.map (User.rename ρ)).map (·.id) =
      (s.users.map (·.id)).map (Id.rename ρ) := by
    simp only [List.map_map]
    rfl
  exact ⟨hids ▸ hs.users.map Id.rename_injective⟩

/-! ### Renamed entries -/

theorem permissionOf_rename (user : UserId) (collection : CollectionId) :
    (s.rename ρ).permissionOf (user.rename ρ) (collection.rename ρ) =
      s.permissionOf user collection := by
  have hkey : ∀ e : (UserId × CollectionId) × ObjectPermission,
      decide ((e.1.1.rename ρ, e.1.2.rename ρ) = (user.rename ρ, collection.rename ρ)) =
        decide (e.1 = (user, collection)) := fun e => by
    simp [Prod.ext_iff]
  simp only [permissionOf, rename, lookup_eq_map_find?, List.find?_map, Option.map_map]
  simp only [Function.comp_def, hkey]

theorem defaultOf_rename (tenant : TenantId) (collection : CollectionId) :
    (s.rename ρ).defaultOf (tenant.rename ρ) (collection.rename ρ) =
      s.defaultOf tenant collection := by
  simp only [defaultOf, rename, List.find?_map, Function.comp_def, OrgWideDefault.rename,
    Id.rename_inj]
  cases s.orgWideDefaults.find? _ <;> rfl

theorem answer_user_rename (user : UserId) :
    (s.rename ρ).answer (.user (user.rename ρ)) = (s.answer (.user user)).map (User.rename ρ) := by
  simp only [answer, rename, List.find?_map, Function.comp_def, User.rename, Id.rename_inj]

end Store

/-! ### Renamed relations -/

theorem transGen_map {α β : Type} {f : α → β} (hf : Function.Injective f) (r : α → α → Prop) :
    Relation.TransGen (Relation.Map r f f) = Relation.Map (Relation.TransGen r) f f := by
  funext b c
  refine propext ⟨fun h => ?_, ?_⟩
  · induction h with
    | single h =>
      obtain ⟨x, y, hxy, hx, hy⟩ := h
      exact ⟨x, y, .single hxy, hx, hy⟩
    | tail _ h ih =>
      obtain ⟨x, y, hxy, hx, hy⟩ := ih
      obtain ⟨y', z, hyz, hy', hz⟩ := h
      have heq : y' = y := hf (hy'.trans hy.symm)
      exact ⟨x, z, hxy.tail (heq ▸ hyz), hx, hz⟩
  · rintro ⟨x, y, hxy, rfl, rfl⟩
    exact hxy.lift f fun a b hab => ⟨a, b, hab, rfl, rfl⟩

namespace Store

variable {s : Store}

theorem mem_memberships_rename (type : MemberType) {g : GroupId} {a : Id type.kind} :
    ⟨g, type, a.text⟩ ∈ (s.rename ρ).memberships ↔
      ∃ h b, ⟨h, type, Id.text b⟩ ∈ s.memberships ∧ h.rename ρ = g ∧ b.rename ρ = a := by
  constructor
  · intro hmem
    obtain ⟨⟨h, type', member⟩, hm, heq⟩ := List.mem_map.1 hmem
    simp only [Membership.rename, Membership.mk.injEq] at heq
    obtain ⟨hg, rfl, hmember⟩ := heq
    exact ⟨h, ⟨member⟩, hm, hg, Id.text_inj.1 hmember⟩
  · rintro ⟨h, b, hm, rfl, rfl⟩
    exact List.mem_map.2 ⟨_, hm, rfl⟩

theorem nests_rename :
    (s.rename ρ).graph.Nests = Relation.Map s.graph.Nests (Id.rename ρ) (Id.rename ρ) := by
  funext parent child
  exact propext (mem_memberships_rename .group)

theorem managedBy_rename :
    (s.rename ρ).ManagedBy = Relation.Map s.ManagedBy (Id.rename ρ) (Id.rename ρ) := by
  funext u m
  refine propext ⟨?_, ?_⟩
  · rintro ⟨x', hx', hid, hmanager⟩
    obtain ⟨x, hx, rfl⟩ := List.mem_map.1 hx'
    obtain ⟨manager, hsome, heq⟩ := Option.map_eq_some_iff.1 hmanager
    exact ⟨x.id, manager, ⟨x, hx, rfl, hsome⟩, hid, heq⟩
  · rintro ⟨u, m, ⟨x, hx, rfl, hmanager⟩, rfl, rfl⟩
    exact ⟨x.rename ρ, List.mem_map_of_mem hx, rfl, by simp [User.rename, hmanager]⟩

theorem reaches_rename (scope : ManagerScope) :
    scope.Reaches (s.rename ρ).ManagedBy =
      Relation.Map (scope.Reaches s.ManagedBy) (Id.rename ρ) (Id.rename ρ) := by
  rw [managedBy_rename]
  cases scope with
  | direct => rfl
  | transitive => exact transGen_map Id.rename_injective s.ManagedBy

theorem hasMember_rename :
    (s.rename ρ).HasMember = Relation.Map s.HasMember (Id.rename ρ) (Id.rename ρ) := by
  funext g u
  refine propext ⟨?_, ?_⟩
  · rintro ⟨below, hbelow, hdirect⟩
    -- each group down to the member has the new name of one that was there
    induction hbelow using Relation.ReflTransGen.head_induction_on with
    | refl =>
      obtain ⟨h, v, hv, hh, hu⟩ := (mem_memberships_rename .user).1 hdirect
      exact ⟨h, v, ⟨h, .refl, hv⟩, hh, hu⟩
    | head hp _ ih =>
      obtain ⟨h, v, ⟨below, hbelow, hv⟩, hh, hu⟩ := ih
      rw [nests_rename] at hp
      obtain ⟨g, h', hgh, hg, hh'⟩ := hp
      obtain rfl : h' = h := Id.rename_injective (hh'.trans hh.symm)
      exact ⟨g, v, ⟨below, hbelow.head hgh, hv⟩, hg, hu⟩
  · rintro ⟨g, u, ⟨below, hbelow, hdirect⟩, rfl, rfl⟩
    refine ⟨below.rename ρ, ?_, (mem_memberships_rename .user).2 ⟨_, _, hdirect, rfl, rfl⟩⟩
    rw [nests_rename]
    exact hbelow.lift _ fun a b hab => ⟨a, b, hab, rfl, rfl⟩

theorem climbs_rename {n : ℕ} {direct g : GroupId} :
    (s.rename ρ).graph.Climbs n (direct.rename ρ) g ↔
      ∃ h, s.graph.Climbs n direct h ∧ h.rename ρ = g := by
  constructor
  · generalize hstart : direct.rename ρ = start
    intro hc
    -- the chain is followed from its lower end, where every group has the new name of another
    induction hc with
    | here g => exact ⟨direct, .here _, hstart⟩
    | up _ hp ih =>
      obtain ⟨h, hc, hh⟩ := ih hstart
      rw [nests_rename] at hp
      obtain ⟨parent, h', hp, hparent, hh'⟩ := hp
      obtain rfl : h' = h := Id.rename_injective (hh'.trans hh.symm)
      exact ⟨parent, hc.up hp, hparent⟩
  · rintro ⟨h, hc, rfl⟩
    induction hc with
    | here g => exact .here _
    | @up _ _ g parent _ hp ih =>
      refine ih.up ?_
      rw [nests_rename]
      exact ⟨parent, g, hp, rfl, rfl⟩

theorem above_rename {user : UserId} {n : ℕ} {g : GroupId} :
    (s.rename ρ).graph.Above (user.rename ρ) n g ↔
      ∃ h, s.graph.Above user n h ∧ h.rename ρ = g := by
  constructor
  · rintro ⟨start, hstart, hc⟩
    obtain ⟨direct, v, hdirect, rfl, hu⟩ := (mem_memberships_rename .user).1 hstart
    obtain rfl : v = user := Id.rename_injective hu
    obtain ⟨h, hc, hh⟩ := climbs_rename.1 hc
    exact ⟨h, ⟨direct, hdirect, hc⟩, hh⟩
  · rintro ⟨h, ⟨direct, hdirect, hc⟩, rfl⟩
    exact ⟨direct.rename ρ, (mem_memberships_rename .user).2 ⟨_, _, hdirect, rfl, rfl⟩,
      climbs_rename.2 ⟨h, hc, rfl⟩⟩

theorem hasRole_rename {u : User} {role : RoleId} {tenant : TenantId} :
    ((u.rename ρ).role = some (role.rename ρ) ∧
        ((u.rename ρ).tenant = none ∨ (u.rename ρ).tenant = some (tenant.rename ρ))) ↔
      u.role = some role ∧ (u.tenant = none ∨ u.tenant = some tenant) := by
  simp [User.rename, Option.map_eq_some_iff]

/-- A renamed principal stands for the users it stood for, under their new names. -/
theorem contains_rename {tenant : TenantId} {p : Principal} {u : UserId} :
    (s.rename ρ).Contains (tenant.rename ρ) (p.rename ρ) u ↔
      ∃ v, s.Contains tenant p v ∧ v.rename ρ = u := by
  -- only a role depends on the tenant, and on what the directory says
  cases p with
  | user id => simp [Contains, Principal.rename]
  | group g | queue g =>
    simp only [Contains, Principal.rename, hasMember_rename, Relation.map_apply, Id.rename_inj]
    constructor
    · rintro ⟨h, v, hv, rfl, hu⟩
      exact ⟨v, hv, hu⟩
    · rintro ⟨v, hv, hu⟩
      exact ⟨g, v, hv, rfl, hu⟩
  | role r =>
    simp only [Contains, Principal.rename]
    constructor
    · rintro ⟨x', hx', rfl, hrole⟩
      obtain ⟨x, hx, rfl⟩ := List.mem_map.1 hx'
      exact ⟨x.id, ⟨x, hx, rfl, hasRole_rename.1 hrole⟩, rfl⟩
    · rintro ⟨v, ⟨x, hx, rfl, hrole⟩, rfl⟩
      exact ⟨x.rename ρ, List.mem_map_of_mem hx, rfl, hasRole_rename.2 hrole⟩

end Store

/-! ### Renamed decisions -/

theorem AccessSubject.mem_groups_rename {subject : AccessSubject} {g : GroupId} :
    g ∈ (subject.rename ρ).groups ↔ ∃ h ∈ subject.groups, h.rename ρ = g := by
  rw [rename, mem_sortedGroups, List.mem_map]

theorem AccessSubject.belongsTo_rename {subject : AccessSubject} {tenant : TenantId}
    {p : Principal} :
    (subject.rename ρ).BelongsTo (tenant.rename ρ) (p.rename ρ) ↔ subject.BelongsTo tenant p := by
  cases p with
  | user id => exact Id.rename_inj
  | group g | queue g =>
    show _ ∈ (subject.rename ρ).groups ↔ _ ∈ subject.groups
    simp [mem_groups_rename]
  | role r =>
    show (_ ∧ _) ↔ (_ ∧ _)
    simp [rename, Option.map_eq_some_iff]

namespace Store

variable {s : Store} {subject : AccessSubject} {record : Record} {access : AccessType}

theorem opens_rename {kind : RuleKind} :
    (s.rename ρ).Opens (record.rename ρ) (kind.rename ρ) ↔ s.Opens record kind := by
  cases kind with
  | criteriaBased criteria => exact Iff.rfl
  | ownerBased sharedFrom =>
    simp only [Opens, RuleKind.rename, Record.rename, contains_rename, Option.map_eq_some_iff]
    constructor
    · rintro ⟨_, ⟨owner, howner, rfl⟩, v, hv, heq⟩
      obtain rfl : v = owner := Id.rename_injective heq
      exact ⟨v, howner, hv⟩
    · rintro ⟨owner, howner, hv⟩
      exact ⟨_, ⟨owner, howner, rfl⟩, owner, hv, rfl⟩

theorem ruleGrants_rename {r : SharingRule} :
    (s.rename ρ).RuleGrants (subject.rename ρ) (record.rename ρ) access (r.rename ρ) ↔
      s.RuleGrants subject record access r := by
  constructor
  · exact fun h => ⟨Id.rename_inj.1 h.tenant, Id.rename_inj.1 h.collection, h.active, h.level,
      AccessSubject.belongsTo_rename.1 h.recipient, opens_rename.1 h.opens⟩
  · exact fun h => ⟨Id.rename_inj.2 h.tenant, Id.rename_inj.2 h.collection, h.active, h.level,
      AccessSubject.belongsTo_rename.2 h.recipient, opens_rename.2 h.opens⟩

theorem shareGrants_rename {recipients' recipients : ShareSubject → Prop}
    (h : ∀ w, recipients' (w.rename ρ) ↔ recipients w) {share : RecordShare} :
    ShareGrants recipients' (record.rename ρ) access (share.rename ρ) ↔
      ShareGrants recipients record access share := by
  constructor
  · exact fun hs => ⟨Id.rename_inj.1 hs.tenant, Id.rename_inj.1 hs.collection,
      Id.rename_inj.1 hs.record, hs.level, (h _).1 hs.recipient⟩
  · exact fun hs => ⟨Id.rename_inj.2 hs.tenant, Id.rename_inj.2 hs.collection,
      Id.rename_inj.2 hs.record, hs.level, (h _).2 hs.recipient⟩

theorem isUser_rename (w : ShareSubject) :
    w.rename ρ = .user (subject.rename ρ).user ↔ w = .user subject.user := by
  cases w <;> simp [ShareSubject.rename, AccessSubject.rename]

theorem isGroup_rename (w : ShareSubject) :
    (∃ g ∈ (subject.rename ρ).groups, w.rename ρ = .group g) ↔
      ∃ g ∈ subject.groups, w = .group g := by
  cases w <;> simp [ShareSubject.rename, AccessSubject.mem_groups_rename]

theorem manages_rename (scope : ManagerScope) :
    (∃ owner, (record.rename ρ).owner = some owner ∧
        scope.Reaches (s.rename ρ).ManagedBy owner (subject.rename ρ).user) ↔
      ∃ owner, record.owner = some owner ∧ scope.Reaches s.ManagedBy owner subject.user := by
  rw [reaches_rename]
  simp only [Record.rename, AccessSubject.rename, Option.map_eq_some_iff]
  constructor
  · rintro ⟨_, ⟨owner, howner, rfl⟩, hreaches⟩
    exact ⟨owner, howner,
      (Relation.map_apply_apply Id.rename_injective Id.rename_injective _ _ _).1 hreaches⟩
  · rintro ⟨owner, howner, hreaches⟩
    exact ⟨_, ⟨owner, howner, rfl⟩, owner, subject.user, hreaches, rfl, rfl⟩

/-- The first of some renamed entries that has a property is the first that had it. -/
theorem find?_rename {α β : Type} {f : α → β} {P' : β → Prop} {P : α → Prop} [DecidablePred P']
    [DecidablePred P] (h : ∀ a, P' (f a) ↔ P a) (l : List α) :
    (l.map f).find? (fun b => P' b) = (l.find? fun a => P a).map f := by
  rw [List.find?_map]
  congr 2
  funext a
  exact decide_eq_decide.2 (h a)

open Classical in
theorem find_rule_rename :
    ((s.rename ρ).rules.find? fun r =>
        (s.rename ρ).RuleGrants (subject.rename ρ) (record.rename ρ) access r) =
      (s.rules.find? fun r => s.RuleGrants subject record access r).map (SharingRule.rename ρ) :=
  find?_rename (fun _ => ruleGrants_rename) s.rules

open Classical in
theorem find_share_rename {recipients' recipients : ShareSubject → Prop}
    (h : ∀ w, recipients' (w.rename ρ) ↔ recipients w) :
    ((s.rename ρ).shares.find? fun share =>
        ShareGrants recipients' (record.rename ρ) access share) =
      (s.shares.find? fun share => ShareGrants recipients record access share).map
        (RecordShare.rename ρ) :=
  find?_rename (fun _ => shareGrants_rename h) s.shares

/-- **The policy decides a renamed request as it was.** -/
theorem policy_rename (scope : ManagerScope) :
    (s.rename ρ).policy scope (subject.rename ρ) (record.rename ρ) access =
      s.policy scope subject record access := by
  classical
  have hpermission : (s.rename ρ).permissionOf (subject.rename ρ).user
      (record.rename ρ).collection = s.permissionOf subject.user record.collection :=
    permissionOf_rename _ _
  have hdefault : (s.rename ρ).defaultOf (record.rename ρ).tenant (record.rename ρ).collection =
      s.defaultOf record.tenant record.collection := defaultOf_rename _ _
  have howner : (record.rename ρ).owner = some (subject.rename ρ).user ↔
      record.owner = some subject.user := by
    simp [Record.rename, AccessSubject.rename, Option.map_eq_some_iff]
  unfold policy
  rw [hpermission, hdefault, find_rule_rename, find_share_rename isUser_rename,
    find_share_rename isGroup_rename]
  -- the branches are those of the policy in order
  refine if_congr Iff.rfl rfl (if_congr Iff.rfl rfl (if_congr Iff.rfl rfl (if_congr Iff.rfl rfl
    (if_congr howner rfl (if_congr (manages_rename scope) rfl ?_)))))
  cases s.rules.find? _ with
  | some rule => rfl
  | none =>
    cases s.shares.find? _ with
    | some share => rfl
    | none => cases s.shares.find? _ <;> rfl

theorem Resolves.rename {depth : ℕ} {user : UserId} (h : s.Resolves depth user subject) :
    (s.rename ρ).Resolves depth (user.rename ρ) (subject.rename ρ) where
  same_user := congrArg (Id.rename ρ) h.same_user
  role := by
    rw [answer_user_rename, AccessSubject.rename, h.role]
    cases s.answer (.user user) <;> rfl
  tenant := by
    rw [answer_user_rename, AccessSubject.rename, h.tenant]
    cases s.answer (.user user) <;> rfl
  groups := by
    -- sorting the new texts changes nothing about which groups they are
    refine ⟨_, rfl, fun g => ?_⟩
    rw [List.mem_map]
    constructor
    · rintro ⟨h', hh', rfl⟩
      obtain ⟨n, hn, ha⟩ := h.mem_groups.1 hh'
      exact ⟨n, hn, above_rename.2 ⟨h', ha, rfl⟩⟩
    · rintro ⟨n, hn, ha⟩
      obtain ⟨h', ha, hh'⟩ := above_rename.1 ha
      exact ⟨h', h.mem_groups.2 ⟨n, hn, ha⟩, hh'⟩

end Store

/-! ### Renamed filters -/

theorem Lists.nodup {kind : IdKind} {texts : List String} {P : Id kind → Prop}
    (h : Lists texts P) : texts.Nodup := by
  refine h.increasing.imp ?_
  rintro t _ hlt rfl
  exact List.lt_irrefl _ hlt

theorem Lists.congr {kind : IdKind} {texts : List String} {P P' : Id kind → Prop}
    (h : Lists texts P) (hP : ∀ id, P' id ↔ P id) : Lists texts P' :=
  ⟨h.increasing, fun id => (h.mem_iff id).trans (hP id).symm⟩

theorem Lists.rename {kind : IdKind} {texts : List String} {P : Id kind → Prop}
    (h : Lists texts P) :
    Lists (texts.map (ρ.text kind)).mergeSort fun id : Id kind => ∃ a, P a ∧ a.rename ρ = id where
  increasing := by
    have hnodup : (texts.map (ρ.text kind)).mergeSort.Nodup :=
      (List.mergeSort_perm _ _).nodup_iff.2 (h.nodup.map (ρ.text_injective kind))
    have hsorted : (texts.map (ρ.text kind)).mergeSort.Pairwise (· ≤ ·) :=
      List.pairwise_mergeSort' (· ≤ ·) _
    exact hsorted.imp₂ (fun _ _ hle hne => Text.bytes_lt (lt_of_le_of_ne hle hne)) hnodup
  mem_iff id := by
    rw [List.mem_mergeSort, List.mem_map]
    constructor
    · rintro ⟨t, ht, heq⟩
      exact ⟨⟨t⟩, (h.mem_iff ⟨t⟩).1 ht, Id.text_inj.1 heq⟩
    · rintro ⟨a, ha, rfl⟩
      exact ⟨a.text, (h.mem_iff a).2 ha, rfl⟩

theorem FilterClause.map_rename_among (column : FilterColumn) (values : List String) :
    (FilterClause.among column values).map (FilterClause.rename ρ) =
      FilterClause.among column (values.map (ρ.text column.kind)).mergeSort := by
  unfold among
  have hnil : (values.map (ρ.text column.kind)).mergeSort = [] ↔ values = [] := by
    rw [← List.length_eq_zero_iff, List.length_mergeSort, List.length_map,
      List.length_eq_zero_iff]
  simp only [hnil]
  split <;> rfl

namespace Store

variable {s : Store} {subject : AccessSubject} {tenant : TenantId} {collection : CollectionId}
  {access : AccessType}

theorem applies_rename {r : SharingRule} :
    (r.rename ρ).Applies (subject.rename ρ) (tenant.rename ρ) (collection.rename ρ) access ↔
      r.Applies subject tenant collection access := by
  constructor
  · exact fun h => ⟨h.active, h.level, AccessSubject.belongsTo_rename.1 h.recipient,
      Id.rename_inj.1 h.tenant, Id.rename_inj.1 h.collection⟩
  · exact fun h => ⟨h.active, h.level, AccessSubject.belongsTo_rename.2 h.recipient,
      Id.rename_inj.2 h.tenant, Id.rename_inj.2 h.collection⟩

theorem opensAll_rename :
    (s.rename ρ).OpensAll (subject.rename ρ) (tenant.rename ρ) (collection.rename ρ) access ↔
      s.OpensAll subject tenant collection access := by
  constructor
  · rintro ⟨r', hr', happlies, criteria, hkind⟩
    obtain ⟨r, hr, rfl⟩ := List.mem_map.1 hr'
    exact ⟨r, hr, applies_rename.1 happlies, criteria, SharingRule.rename_criteriaBased_iff.1 hkind⟩
  · rintro ⟨r, hr, happlies, criteria, hkind⟩
    exact ⟨r.rename ρ, List.mem_map_of_mem hr, applies_rename.2 happlies, criteria,
      SharingRule.rename_criteriaBased_iff.2 hkind⟩

theorem opensOwner_rename {u : UserId} :
    (s.rename ρ).OpensOwner (subject.rename ρ) (tenant.rename ρ) (collection.rename ρ) access u ↔
      ∃ v, s.OpensOwner subject tenant collection access v ∧ v.rename ρ = u := by
  constructor
  · rintro ⟨r', hr', happlies, sharedFrom', hkind', hu⟩
    obtain ⟨r, hr, rfl⟩ := List.mem_map.1 hr'
    obtain ⟨sharedFrom, hkind, rfl⟩ := SharingRule.rename_ownerBased_iff.1 hkind'
    obtain ⟨v, hv, hvu⟩ := contains_rename.1 hu
    exact ⟨v, ⟨r, hr, applies_rename.1 happlies, sharedFrom, hkind, hv⟩, hvu⟩
  · rintro ⟨v, ⟨r, hr, happlies, sharedFrom, hkind, hv⟩, rfl⟩
    exact ⟨r.rename ρ, List.mem_map_of_mem hr, applies_rename.2 happlies, sharedFrom.rename ρ,
      SharingRule.rename_ownerBased_iff.2 ⟨sharedFrom, hkind, rfl⟩,
      contains_rename.2 ⟨v, hv, rfl⟩⟩

theorem sharesRecord_rename {id : RecordId} :
    (s.rename ρ).SharesRecord (subject.rename ρ) (tenant.rename ρ) (collection.rename ρ) access
        id ↔
      ∃ i, s.SharesRecord subject tenant collection access i ∧ i.rename ρ = id := by
  constructor
  · rintro ⟨share', hshare', ht, hc, rfl, hl, hw⟩
    obtain ⟨share, hshare, rfl⟩ := List.mem_map.1 hshare'
    exact ⟨share.record, ⟨share, hshare, Id.rename_inj.1 ht, Id.rename_inj.1 hc, rfl, hl,
      hw.imp (isUser_rename _).1 (isGroup_rename _).1⟩, rfl⟩
  · rintro ⟨i, ⟨share, hshare, ht, hc, rfl, hl, hw⟩, rfl⟩
    exact ⟨share.rename ρ, List.mem_map_of_mem hshare, Id.rename_inj.2 ht, Id.rename_inj.2 hc, rfl,
      hl, hw.imp (isUser_rename _).2 (isGroup_rename _).2⟩

/-- **A renamed store calls for the renamed filter.** -/
theorem FilterOf.rename {scope : ManagerScope} {f : Option SharingPredicate}
    (h : s.FilterOf subject tenant collection access scope f) :
    (s.rename ρ).FilterOf (subject.rename ρ) (tenant.rename ρ) (collection.rename ρ) access scope
      (f.map (SharingPredicate.rename ρ)) := by
  cases h with
  | unrestricted hopens => exact .unrestricted (opensAll_rename.2 hopens)
  | restricted hnot reports owners records hreports howners hrecords =>
    -- no two users share a new name, so the renamed chain ends in the subject itself
    have hreaches : ∀ u, scope.Reaches (s.rename ρ).ManagedBy u (subject.rename ρ).user ↔
        ∃ v, scope.Reaches s.ManagedBy v subject.user ∧ v.rename ρ = u := fun u => by
      rw [reaches_rename]
      constructor
      · rintro ⟨v, m, hvm, hv, hm⟩
        exact ⟨v, Id.rename_injective hm ▸ hvm, hv⟩
      · rintro ⟨v, hv, rfl⟩
        exact ⟨v, subject.user, hv, rfl, rfl⟩
    have hfilter := FilterOf.restricted (mt opensAll_rename.1 hnot) _ _ _
      (hreports.rename.congr hreaches) (howners.rename.congr fun u => opensOwner_rename)
      (hrecords.rename.congr fun id => sharesRecord_rename)
    simpa only [Option.map_some, SharingPredicate.rename, List.map_cons, List.map_append,
      FilterClause.map_rename_among, FilterClause.rename, FilterColumn.kind, List.map_nil,
      Renaming.text_text, List.mergeSort_singleton, AccessSubject.rename] using hfilter

/-! ### Renamed requests -/

section Requests

variable (settings : EngineSettings) (hp : s.failing = [])

include hp

theorem exists_evaluateAs_rename (hs : s.Consistent) (subject : AccessSubject) (record : Record)
    (access : AccessType) :
    ∃ d, ((s.engine settings).evaluateAs subject record access).outcome = .ok d ∧
      (((s.rename ρ).engine settings).evaluateAs (subject.rename ρ) (record.rename ρ)
        access).outcome = .ok d := by
  refine ⟨s.policy settings.managerScope subject record access,
    Engine.outcome_evaluateFor.trans (hs.outcome_decide hp), ?_⟩
  rw [← policy_rename]
  exact Engine.outcome_evaluateFor.trans (hs.rename.outcome_decide hp)

theorem exists_filterAs_rename (subject : AccessSubject) (tenant : TenantId)
    (collection : CollectionId) (access : AccessType) :
    ∃ f, ((s.engine settings).filterAs subject tenant collection access).outcome = .ok f ∧
      (((s.rename ρ).engine settings).filterAs (subject.rename ρ) (tenant.rename ρ)
        (collection.rename ρ) access).outcome = .ok (f.map (SharingPredicate.rename ρ)) := by
  have hp' : (s.rename ρ).failing = [] := hp
  obtain ⟨f, hf, hfilter⟩ :=
    exists_filterOf (answeredFrom_collective hp) subject tenant collection access
  obtain ⟨f', hf', hfilter'⟩ := exists_filterOf (answeredFrom_collective hp') (subject.rename ρ)
    (tenant.rename ρ) (collection.rename ρ) access
  -- a filter is determined by what it lists, so renaming it gives the one there is
  obtain rfl := hfilter'.unique hfilter.rename
  have hpermission : (s.rename ρ).permissionOf (subject.rename ρ).user (collection.rename ρ) =
      s.permissionOf subject.user collection := permissionOf_rename _ _
  rw [outcome_filterAs hp, outcome_filterAs hp', hpermission, defaultOf_rename, hf, hf']
  split
  · exact ⟨_, rfl, rfl⟩
  · split
    · exact ⟨_, rfl, rfl⟩
    · split
      · exact ⟨_, rfl, rfl⟩
      · exact ⟨f, rfl, rfl⟩

theorem exists_standsFor_rename (user : UserId) :
    ∃ subject, (s.engine settings).StandsFor False (.user user) (.subject subject) ∧
      ((s.rename ρ).engine settings).StandsFor False (.user (user.rename ρ))
        (.subject (subject.rename ρ)) := by
  obtain ⟨subject, -, hresolves⟩ :=
    exists_resolveSubject settings (s := s) (by simp [hp]) (by simp [hp]) user
  have hp' : (s.rename ρ).failing = [] := hp
  have hstands := hresolves.standsFor
  have hstands' := (hresolves.rename (ρ := ρ)).standsFor
  simp only [hp, hp', List.not_mem_nil, or_self] at hstands hstands'
  exact ⟨subject, hstands, hstands'⟩

end Requests

/-- **Ids are opaque, and each kind has its own.**  Over a store whose providers answer, all ids of
the store and of a request may be renamed, different ids of a kind to different ones and each kind
for itself.  A user or a subject is then decided as before, with the same reason, and is given the
renamed filter. -/
theorem ids_are_opaque (ρ : Renaming) (history : List Mutation) (settings : EngineSettings)
    (hp : (ofHistory history).failing = []) :
    let e := (ofHistory history).engine settings
    let e' := (ofHistory (history.map (Mutation.rename ρ))).engine settings
    ofHistory (history.map (Mutation.rename ρ)) = (ofHistory history).rename ρ ∧
      (∀ user record access, ∃ d, (e.evaluate user record access).outcome = .ok d ∧
        (e'.evaluate (user.rename ρ) (record.rename ρ) access).outcome = .ok d) ∧
      (∀ subject record access, ∃ d, (e.evaluateAs subject record access).outcome = .ok d ∧
        (e'.evaluateAs (subject.rename ρ) (record.rename ρ) access).outcome = .ok d) ∧
      (∀ user tenant collection access, ∃ f,
        (e.filter user tenant collection access).outcome = .ok f ∧
        (e'.filter (user.rename ρ) (tenant.rename ρ) (collection.rename ρ) access).outcome =
          .ok (f.map (SharingPredicate.rename ρ))) ∧
      ∀ subject tenant collection access, ∃ f,
        (e.filterAs subject tenant collection access).outcome = .ok f ∧
        (e'.filterAs (subject.rename ρ) (tenant.rename ρ) (collection.rename ρ) access).outcome =
          .ok (f.map (SharingPredicate.rename ρ)) := by
  have hs := consistent_ofHistory history
  rw [ofHistory_rename]
  -- users are decided as the subjects that they resolve to
  refine ⟨rfl, fun user record access => ?_, exists_evaluateAs_rename settings hp hs,
    fun user tenant collection access => ?_, exists_filterAs_rename settings hp⟩
  · obtain ⟨subject, hstands, hstands'⟩ := exists_standsFor_rename (ρ := ρ) settings hp user
    obtain ⟨d, hd, hd'⟩ := exists_evaluateAs_rename (ρ := ρ) settings hp hs subject record access
    exact ⟨d, ((hstands.evaluateFor record access).outcome_eq id).trans hd,
      ((hstands'.evaluateFor (record.rename ρ) access).outcome_eq id).trans hd'⟩
  · obtain ⟨subject, hstands, hstands'⟩ := exists_standsFor_rename (ρ := ρ) settings hp user
    obtain ⟨f, hf, hf'⟩ :=
      exists_filterAs_rename (ρ := ρ) settings hp subject tenant collection access
    exact ⟨f, ((hstands.filterFor tenant collection access).outcome_eq id).trans hf,
      ((hstands'.filterFor (tenant.rename ρ) (collection.rename ρ) access).outcome_eq id).trans hf'⟩

/-- A group and a user of one text, and records that are shared with the group and with another
user, who is in it. -/
def namesakes : List Mutation :=
  [.orgWideDefault ⟨⟨"t"⟩, ⟨"c"⟩, .privateAccess⟩, .membership (.ofUser ⟨"x"⟩ ⟨"ann"⟩),
    .recordShare (.make ⟨"one", default⟩ ⟨"t"⟩ ⟨"c"⟩ ⟨"a"⟩ (.group ⟨"x"⟩) .read),
    .recordShare (.make ⟨"two", default⟩ ⟨"t"⟩ ⟨"c"⟩ ⟨"b"⟩ (.user ⟨"ann"⟩) .read)]

/-- Two users change their names, and so do two records. -/
def swapped : Renaming where
  toFun {kind} a :=
    match kind with
    | .user => ⟨Equiv.swap "ann" "x" a.text⟩
    | .record => ⟨Equiv.swap "a" "z" a.text⟩
    | _ => a
  injective kind a b h := by
    cases kind <;> simpa [Id.text_inj] using h

/-- The user who takes over the name of the group is still let in by it, and the other is not; the
values of her filter change places. -/
theorem namesakes_stay_apart :
    let e := (ofHistory namesakes).engine ⟨10, .direct⟩
    let e' := (ofHistory (namesakes.map (Mutation.rename swapped))).engine ⟨10, .direct⟩
    (ofHistory namesakes).failing = [] ∧
      (e'.evaluate ⟨"x"⟩ ⟨⟨"t"⟩, ⟨"c"⟩, ⟨"z"⟩, none⟩ .read).outcome =
        .ok (.granted (.groupShare "one")) ∧
      (e'.evaluate ⟨"ann"⟩ ⟨⟨"t"⟩, ⟨"c"⟩, ⟨"z"⟩, none⟩ .read).outcome =
        .ok (.denied .noGrant) ∧
      (e.filter ⟨"ann"⟩ ⟨"t"⟩ ⟨"c"⟩ .read).outcome =
        .ok (some ⟨[⟨.owner, .eq, ["ann"]⟩, ⟨.id, .isIn, ["a", "b"]⟩]⟩) ∧
      SharingPredicate.rename swapped ⟨[⟨.owner, .eq, ["ann"]⟩, ⟨.id, .isIn, ["a", "b"]⟩]⟩ =
        ⟨[⟨.owner, .eq, ["x"]⟩, ⟨.id, .isIn, ["b", "z"]⟩]⟩ := by
  intro e e'
  obtain ⟨-, hevaluate, -, hfilter, -⟩ := ids_are_opaque swapped namesakes ⟨10, .direct⟩ rfl
  have hann : (e.evaluate ⟨"ann"⟩ ⟨⟨"t"⟩, ⟨"c"⟩, ⟨"a"⟩, none⟩ .read).outcome =
      .ok (.granted (.groupShare "one")) := rfl
  have hx : (e.evaluate ⟨"x"⟩ ⟨⟨"t"⟩, ⟨"c"⟩, ⟨"a"⟩, none⟩ .read).outcome =
      .ok (.denied .noGrant) := rfl
  obtain ⟨d, hd, hd'⟩ := hevaluate ⟨"ann"⟩ ⟨⟨"t"⟩, ⟨"c"⟩, ⟨"a"⟩, none⟩ .read
  cases hd.symm.trans hann
  obtain ⟨d, hdx, hdx'⟩ := hevaluate ⟨"x"⟩ ⟨⟨"t"⟩, ⟨"c"⟩, ⟨"a"⟩, none⟩ .read
  cases hdx.symm.trans hx
  obtain ⟨f, hf, hf'⟩ := hfilter ⟨"ann"⟩ ⟨"t"⟩ ⟨"c"⟩ .read
  have hbefore : (e.filter ⟨"ann"⟩ ⟨"t"⟩ ⟨"c"⟩ .read).outcome =
      .ok (some ⟨[⟨.owner, .eq, ["ann"]⟩, ⟨.id, .isIn, ["a", "b"]⟩]⟩) := rfl
  have hafter : (e'.filter ⟨"x"⟩ ⟨"t"⟩ ⟨"c"⟩ .read).outcome =
      .ok (some ⟨[⟨.owner, .eq, ["x"]⟩, ⟨.id, .isIn, ["b", "z"]⟩]⟩) := rfl
  cases hf.symm.trans hbefore
  exact ⟨rfl, hd', hdx', hbefore, Option.some.inj (Except.ok.inj (hf'.symm.trans hafter))⟩

end Store

end RecordAccess
