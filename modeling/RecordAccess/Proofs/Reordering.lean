import RecordAccess.Proofs.Recall
import RecordAccess.Proofs.Widening

/-!
# The order of changes

What is replaced by key once only, and all that is kept side by side, may be put into a store in any
order and any number of times: the store holds the same (`Store.rearranges_ofHistory`,
`Store.rearranges_append`).  The order
matters only where the first of several rules or shares is named, so decisions are the same up to
which of those that grant is named (`Store.SameButNamed`, `Store.order_only_chooses_names`).
-/

namespace RecordAccess

/-! ### Keys that are put in once -/

/-- What a store keeps one value of. -/
inductive Slot
  | permission (user : UserId) (collection : CollectionId)
  | defaultPermission
  | orgWideDefault (tenant : TenantId) (collection : CollectionId)
  | user (id : UserId)
deriving DecidableEq

namespace Mutation

/-- The slot whose value a change replaces. -/
def slot? : Mutation → Option Slot
  | .permission u collection _ => some (.permission u collection)
  | .defaultPermission _ => some .defaultPermission
  | .orgWideDefault d => some (.orgWideDefault d.tenant d.collection)
  | .user u => some (.user u.id)
  | _ => none

variable {m : Mutation}

theorem slot?_of_permissionFor? {u : UserId} {collection : CollectionId} {p : ObjectPermission}
    (h : m.permissionFor? u collection = some p) : m.slot? = some (.permission u collection) := by
  cases m with
  | permission x c p' =>
    obtain ⟨hkey, -⟩ := Option.ite_none_right_eq_some.1 h
    obtain ⟨rfl, rfl⟩ := Prod.mk.inj hkey
    rfl
  | _ => cases h

theorem slot?_of_defaultPermission? {p : ObjectPermission} (h : m.defaultPermission? = some p) :
    m.slot? = some .defaultPermission := by
  cases m with
  | defaultPermission => rfl
  | _ => cases h

theorem slot?_of_orgWideDefaultFor? {tenant : TenantId} {collection : CollectionId}
    {d : OrgWideDefault} (h : m.orgWideDefaultFor? tenant collection = some d) :
    m.slot? = some (.orgWideDefault tenant collection) := by
  cases m with
  | orgWideDefault x =>
    obtain ⟨hkey, -⟩ := Option.ite_none_right_eq_some.1 h
    obtain ⟨rfl, rfl⟩ := Prod.mk.inj hkey
    rfl
  | _ => cases h

theorem slot?_of_userWith? {id : UserId} {u : User} (h : m.userWith? id = some u) :
    m.slot? = some (.user id) := by
  cases m with
  | user x =>
    obtain ⟨rfl, -⟩ := Option.ite_none_right_eq_some.1 h
    rfl
  | _ => cases h

end Mutation

/-- Changes that set one slot are the same change, however often it is made. -/
def SetOnce (changes : List Mutation) : Prop :=
  ∀ m ∈ changes, ∀ m' ∈ changes, ∀ slot, m.slot? = some slot → m'.slot? = some slot → m = m'

theorem setOnce_of_nodup {changes : List Mutation}
    (h : (changes.filterMap Mutation.slot?).Nodup) : SetOnce changes := by
  have hpairs := List.pairwise_filterMap.1 h
  intro m hm m' hm'
  refine List.Pairwise.forall_of_forall_of_flip
    (R := fun m m' => ∀ slot, m.slot? = some slot → m'.slot? = some slot → m = m')
    (fun _ _ _ _ _ => rfl) (hpairs.imp ?_) (hpairs.imp ?_) hm hm'
  · exact fun hne slot hslot hslot' => absurd rfl (hne slot hslot slot hslot')
  · exact fun hne slot hslot hslot' => absurd rfl (hne slot hslot' slot hslot)

section Latest

variable {α : Type} {f : Mutation → Option α} {slot : Slot}
  (hf : ∀ m a, f m = some a → m.slot? = some slot)

theorem latest_append (f : Mutation → Option α) (before after : List Mutation) :
    latest f (before ++ after) = (latest f after).or (latest f before) := by
  simp only [latest, List.filterMap_append, List.getLast?_append]

include hf

/-- Where slots are set once, the last value for a slot is any value for it. -/
theorem latest_eq_some_iff {changes : List Mutation} (honce : SetOnce changes) {a : α} :
    latest f changes = some a ↔ ∃ m ∈ changes, f m = some a := by
  constructor
  · intro h
    exact List.mem_filterMap.1 (List.mem_of_getLast? h)
  · rintro ⟨m, hm, hfm⟩
    have hne : changes.filterMap f ≠ [] := List.ne_nil_of_mem (List.mem_filterMap.2 ⟨m, hm, hfm⟩)
    have hlast : latest f changes = some _ := List.getLast?_eq_some_getLast hne
    obtain ⟨m', hm', hfm'⟩ := List.mem_filterMap.1 (List.mem_of_getLast? hlast)
    have hsame := honce m hm m' hm' slot (hf m a hfm) (hf m' _ hfm')
    rw [hlast, ← hfm', ← hsame, hfm]

/-- So it depends neither on the order of changes nor on how often they are made. -/
theorem latest_congr {changes' changes : List Mutation} (hsame : SameMembers changes' changes)
    (honce : SetOnce changes) : latest f changes' = latest f changes := by
  have honce' : SetOnce changes' := fun m hm m' hm' =>
    honce m ((hsame m).1 hm) m' ((hsame m').1 hm')
  ext a
  rw [latest_eq_some_iff hf honce', latest_eq_some_iff hf honce]
  simp only [hsame _]

end Latest

namespace Store

/-! ### Stores that hold the same -/

/-- A store holds what another holds, in any order. -/
structure Rearranges (s' s : Store) : Prop where
  permission : ∀ user collection, s'.permissionOf user collection = s.permissionOf user collection
  orgWideDefault : ∀ tenant collection,
    s'.defaultOf tenant collection = s.defaultOf tenant collection
  user : ∀ id, s'.answer (.user id) = s.answer (.user id)
  users : SameMembers s'.users s.users
  memberships : SameMembers s'.memberships s.memberships
  rules : SameMembers s'.rules s.rules
  shares : SameMembers s'.shares s.shares

/-- Histories with the same changes and the same last values lead to stores that hold the same. -/
theorem rearranges_of_latest {history' history : List Mutation}
    (hsame : SameMembers history' history)
    (hlatest : ∀ {α : Type} {f : Mutation → Option α} {slot : Slot},
      (∀ m a, f m = some a → m.slot? = some slot) → latest f history' = latest f history) :
    (ofHistory history').Rearranges (ofHistory history) := by
  have h' := recorded_ofHistory history'
  have h := recorded_ofHistory history
  -- entries under keys are those put in last, everything else is a matter of membership
  have huser : ∀ id, latest (Mutation.userWith? id) history' =
      latest (Mutation.userWith? id) history := fun id =>
    hlatest fun _ _ => Mutation.slot?_of_userWith?
  refine ⟨fun user collection => ?_, fun tenant collection => ?_, fun id => ?_, fun u => ?_,
    fun m => ?_, fun r => ?_, fun share => ?_⟩
  · rw [permissionOf, permissionOf, h'.permissions, h.permissions, h'.defaultPermission,
      h.defaultPermission, hlatest fun _ _ => Mutation.slot?_of_permissionFor?,
      hlatest fun _ _ => Mutation.slot?_of_defaultPermission?]
  · have hdefault := (h'.orgWideDefaults tenant collection).trans
      ((hlatest fun _ _ => Mutation.slot?_of_orgWideDefaultFor?).trans
        (h.orgWideDefaults tenant collection).symm)
    simp only [answer] at hdefault
    rw [defaultOf, defaultOf, hdefault]
  · rw [h'.users, h.users, huser]
  · rw [h'.mem_users, h.mem_users, huser]
  · rw [h'.memberships, h.memberships, hsame]
  · rw [h'.rules, h.rules, hsame.filterMap]
  · rw [h'.shares, h.shares, hsame.filterMap]

/-- **The order in which things are put in does not change what a store holds.** -/
theorem rearranges_ofHistory {history' history : List Mutation} (hperm : history'.Perm history)
    (hslots : (history.filterMap Mutation.slot?).Nodup) :
    (ofHistory history').Rearranges (ofHistory history) :=
  rearranges_of_latest (fun _ => hperm.mem_iff) fun hf =>
    latest_congr hf (fun _ => hperm.mem_iff) (setOnce_of_nodup hslots)

/-- **Neither does it matter how often things are put in**, whatever the store held before. -/
theorem rearranges_append (base : List Mutation) {changes' changes : List Mutation}
    (hsame : SameMembers changes' changes) (honce : SetOnce changes) :
    (ofHistory (base ++ changes')).Rearranges (ofHistory (base ++ changes)) := by
  refine rearranges_of_latest ((SameMembers.refl base).append hsame) fun hf => ?_
  rw [latest_append, latest_append, latest_congr hf hsame honce]

namespace Rearranges

variable {s' s : Store} (h : s'.Rearranges s) {subject : AccessSubject} {record : Record}
  {access : AccessType}

include h

theorem symm : s.Rearranges s' :=
  ⟨fun u c => (h.permission u c).symm, fun t c => (h.orgWideDefault t c).symm,
    fun id => (h.user id).symm, fun u => (h.users u).symm, fun m => (h.memberships m).symm,
    fun r => (h.rules r).symm, fun share => (h.shares share).symm⟩

theorem extends_of_failing (hp' : s'.failing = []) (hp : s.failing = []) :
    Deployment.Extends ⟨s', {}⟩ ⟨s, {}⟩ where
  users u := (h.users u).2
  memberships m := (h.memberships m).2
  rules r := (h.rules r).2
  shares share := (h.shares share).2
  permission user collection := by
    show (s'.permissionOf user collection).HasFlagsOf (s.permissionOf user collection)
    rw [h.permission]
    exact .refl _
  orgWideDefault tenant collection access hg := by
    show (s'.defaultOf tenant collection).grants access = true
    rwa [h.orgWideDefault]
  scope := id
  depth := le_rfl
  failing := hp'.trans hp.symm

theorem managedBy_eq : s'.ManagedBy = s.ManagedBy := by
  funext u m
  refine propext ⟨?_, ?_⟩
  · rintro ⟨x, hx, hm⟩
    exact ⟨x, (h.users x).1 hx, hm⟩
  · rintro ⟨x, hx, hm⟩
    exact ⟨x, (h.users x).2 hx, hm⟩

theorem ruleGrants_eq (hp' : s'.failing = []) (hp : s.failing = []) :
    s'.RuleGrants subject record access = s.RuleGrants subject record access := by
  funext r
  exact propext ⟨(h.symm.extends_of_failing hp hp').ruleGrants (.refl subject),
    (h.extends_of_failing hp' hp).ruleGrants (.refl subject)⟩

end Rearranges

/-! ### Decisions that differ in a name -/

theorem find?_sameMembers {α : Type} {as' as : List α} (h : SameMembers as' as) (p : α → Bool) :
    (∃ a' a, as'.find? p = some a' ∧ as.find? p = some a ∧
      (a' ∈ as ∧ p a' = true) ∧ a ∈ as ∧ p a = true) ∨
      as'.find? p = none ∧ as.find? p = none := by
  cases ha : as.find? p with
  | none =>
    refine .inr ⟨List.find?_eq_none.2 fun a' ha' => ?_, rfl⟩
    exact List.find?_eq_none.1 ha a' ((h a').1 ha')
  | some a =>
    have hmem := List.mem_of_find?_eq_some ha
    have hpa := List.find?_some ha
    obtain ⟨a', ha'⟩ : ∃ a', as'.find? p = some a' := by
      rw [← Option.isSome_iff_exists, List.find?_isSome]
      exact ⟨a, (h a).2 hmem, hpa⟩
    exact .inl ⟨a', a, ha', rfl, ⟨(h a').1 (List.mem_of_find?_eq_some ha'), List.find?_some ha'⟩,
      hmem, hpa⟩

/-- Two decisions are the same, or name two rules or two shares of one kind that both grant the
access. -/
inductive SameButNamed (s : Store) (subject : AccessSubject) (record : Record)
    (access : AccessType) : Decision → Decision → Prop
  | same (d : Decision) : SameButNamed s subject record access d d
  | rule (r' r : SharingRule)
    (h' : r' ∈ s.rules ∧ s.RuleGrants subject record access r')
    (h : r ∈ s.rules ∧ s.RuleGrants subject record access r) :
    SameButNamed s subject record access
      (.granted (.sharingRule r'.id)) (.granted (.sharingRule r.id))
  | recordShare (share' share : RecordShare)
    (h' : share' ∈ s.shares ∧
      ShareGrants (fun w => w = .user subject.user) record access share')
    (h : share ∈ s.shares ∧ ShareGrants (fun w => w = .user subject.user) record access share) :
    SameButNamed s subject record access
      (.granted (.recordShare share'.id)) (.granted (.recordShare share.id))
  | groupShare (share' share : RecordShare)
    (h' : share' ∈ s.shares ∧
      ShareGrants (fun w => ∃ g ∈ subject.groups, w = .group g) record access share')
    (h : share ∈ s.shares ∧
      ShareGrants (fun w => ∃ g ∈ subject.groups, w = .group g) record access share) :
    SameButNamed s subject record access
      (.granted (.groupShare share'.id)) (.granted (.groupShare share.id))

theorem SameButNamed.label_eq {s : Store} {subject : AccessSubject} {record : Record}
    {access : AccessType} {d' d : Decision} (h : s.SameButNamed subject record access d' d) :
    d'.label = d.label := by
  cases h <;> rfl

theorem SameButNamed.ite {s : Store} {subject : AccessSubject} {record : Record}
    {access : AccessType} {c : Prop} [Decidable c] {d d₁ d₂ : Decision}
    (h : s.SameButNamed subject record access d₁ d₂) :
    s.SameButNamed subject record access (if c then d else d₁) (if c then d else d₂) := by
  split
  · exact .same d
  · exact h

/-- **Stores that hold the same decide the same**, up to which rule or share is named. -/
theorem Rearranges.sameButNamed_policy {s' s : Store} (h : s'.Rearranges s) (hp' : s'.failing = [])
    (hp : s.failing = []) (scope : ManagerScope) (subject : AccessSubject) (record : Record)
    (access : AccessType) :
    s.SameButNamed subject record access (s'.policy scope subject record access)
      (s.policy scope subject record access) := by
  classical
  unfold policy
  rw [h.permission, h.orgWideDefault, h.managedBy_eq, h.ruleGrants_eq hp' hp]
  refine .ite (.ite (.ite (.ite (.ite (.ite ?_)))))
  -- each search finds something in both stores, or the next one decides
  obtain ⟨r', r, hr', hr, hg', hg⟩ | ⟨hr', hr⟩ :=
    find?_sameMembers h.rules fun r => s.RuleGrants subject record access r
  · rw [hr', hr]
    exact .rule r' r (by simpa using hg') (by simpa using hg)
  rw [hr', hr]
  obtain ⟨share', share, hd', hd, hg', hg⟩ | ⟨hd', hd⟩ := find?_sameMembers h.shares fun share =>
    ShareGrants (fun w => w = .user subject.user) record access share
  · rw [hd', hd]
    exact .recordShare share' share (by simpa using hg') (by simpa using hg)
  rw [hd', hd]
  obtain ⟨share', share, hs', hs, hg', hg⟩ | ⟨hs', hs⟩ := find?_sameMembers h.shares fun share =>
    ShareGrants (fun w => ∃ g ∈ subject.groups, w = .group g) record access share
  · rw [hs', hs]
    exact .groupShare share' share (by simpa using hg') (by simpa using hg)
  rw [hs', hs]
  exact .same _

/-- **The order of changes only chooses which name is given.**  Two histories with the same changes
in different orders, which set every permission, default and user once, lead to stores that decide
every request alike while no provider fails: for the same kind of source or the same reason, and
where that is a rule or a share, both are ones that grant the access. -/
theorem order_only_chooses_names (history' history : List Mutation)
    (hperm : history'.Perm history) (hslots : (history.filterMap Mutation.slot?).Nodup)
    (hp' : (ofHistory history').failing = []) (hp : (ofHistory history).failing = [])
    (settings : EngineSettings) (record : Record) (access : AccessType) :
    let e' := (ofHistory history').engine settings
    let e := (ofHistory history).engine settings
    (∀ subject, ∃ d' d, (e'.evaluateAs subject record access).outcome = .ok d' ∧
      (e.evaluateAs subject record access).outcome = .ok d ∧ d'.label = d.label ∧
        (ofHistory history).SameButNamed subject record access d' d) ∧
    ∀ user, ∃ subject d' d, (e'.resolveSubject user).outcome = .ok subject ∧
      (e.resolveSubject user).outcome = .ok subject ∧
      (e'.evaluate user record access).outcome = .ok d' ∧
      (e.evaluate user record access).outcome = .ok d ∧ d'.label = d.label ∧
        (ofHistory history).SameButNamed subject record access d' d := by
  intro e' e
  have h := rearranges_ofHistory hperm hslots
  have hdecide : ∀ subject, ∃ d' d, (e'.evaluateAs subject record access).outcome = .ok d' ∧
      (e.evaluateAs subject record access).outcome = .ok d ∧ d'.label = d.label ∧
        (ofHistory history).SameButNamed subject record access d' d := by
    intro subject
    have hsame := h.sameButNamed_policy hp' hp settings.managerScope subject record access
    exact ⟨_, _,
      Engine.outcome_evaluateFor.trans ((consistent_ofHistory history').outcome_decide hp'),
      Engine.outcome_evaluateFor.trans ((consistent_ofHistory history).outcome_decide hp),
      hsame.label_eq, hsame⟩
  refine ⟨hdecide, fun user => ?_⟩
  have hanswers' : ∀ p : Provider, p ∉ (ofHistory history').failing := by simp [hp']
  have hanswers : ∀ p : Provider, p ∉ (ofHistory history).failing := by simp [hp]
  obtain ⟨subject, hsubject, hresolves⟩ :=
    exists_resolveSubject settings (hanswers .users) (hanswers .groups) user
  -- the user resolves to one subject in both stores
  have hresolves' := hresolves.of_eq (h.user user) h.memberships
  obtain ⟨d', d, hd', hd, hsame⟩ := hdecide subject
  refine ⟨subject, d', d, resolveSubject_eq_ok_iff.2
    ⟨⟨hanswers' .users, hanswers' .groups⟩, hresolves'⟩, hsubject, ?_, ?_, hsame⟩
  · rw [← hd']
    exact (hresolves'.standsFor.evaluateFor record access).outcome_eq (by simp [hp'])
  · rw [← hd]
    exact (hresolves.standsFor.evaluateFor record access).outcome_eq (by simp [hp])

/-- Two rules of a private collection that both share with the group of a user. -/
def twoRules : List Mutation :=
  [.orgWideDefault ⟨⟨"t"⟩, ⟨"c"⟩, .privateAccess⟩,
    .rule (.make ⟨"first", default⟩ ⟨"t"⟩ ⟨"c"⟩ (.criteriaBased .null) (.group ⟨"g"⟩) .read),
    .rule (.make ⟨"second", default⟩ ⟨"t"⟩ ⟨"c"⟩ (.criteriaBased .null) (.group ⟨"g"⟩) .read),
    .membership (.ofUser ⟨"g"⟩ ⟨"ann"⟩)]

/-- Backwards, the other rule is named. -/
theorem second_rule_named :
    (twoRules.filterMap Mutation.slot?).Nodup ∧
      (ofHistory twoRules.reverse).failing = [] ∧ (ofHistory twoRules).failing = [] ∧
      ∃ subject, (ofHistory twoRules).SameButNamed subject ⟨⟨"t"⟩, ⟨"c"⟩, ⟨"r"⟩, none⟩ .read
        (.granted (.sharingRule "second")) (.granted (.sharingRule "first")) := by
  have hslots : (twoRules.filterMap Mutation.slot?).Nodup := by decide
  obtain ⟨-, huser⟩ := order_only_chooses_names twoRules.reverse twoRules twoRules.reverse_perm
    hslots rfl rfl ⟨10, .direct⟩ ⟨⟨"t"⟩, ⟨"c"⟩, ⟨"r"⟩, none⟩ .read
  obtain ⟨subject, d', d, -, -, hd', hd, -, hsame⟩ := huser ⟨"ann"⟩
  have hsecond : (((ofHistory twoRules.reverse).engine ⟨10, .direct⟩).evaluate ⟨"ann"⟩
      ⟨⟨"t"⟩, ⟨"c"⟩, ⟨"r"⟩, none⟩ .read).outcome = .ok (.granted (.sharingRule "second")) := rfl
  have hfirst : (((ofHistory twoRules).engine ⟨10, .direct⟩).evaluate ⟨"ann"⟩
      ⟨⟨"t"⟩, ⟨"c"⟩, ⟨"r"⟩, none⟩ .read).outcome = .ok (.granted (.sharingRule "first")) := rfl
  cases hd'.symm.trans hsecond
  cases hd.symm.trans hfirst
  exact ⟨hslots, rfl, rfl, subject, hsame⟩

end Store

end RecordAccess
