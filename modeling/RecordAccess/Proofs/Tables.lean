import Mathlib.Data.List.Basic
import RecordAccess.Database.Providers
import RecordAccess.Proofs.Predicates
import RecordAccess.Proofs.Rows
import RecordAccess.Proofs.Sorting
import RecordAccess.Store.Basic

/-!
# Complete tables

Tables are complete when no required column of a row is null (`Database.isComplete`).  The models of
the rows make up a store (`Database.contents`).  Every query over complete tables succeeds and is
answered as that store answers (`Database.outcome_query`): a condition on columns selects the rows
whose models satisfy the condition on models, and the order of rows is kept.
-/

namespace RecordAccess

/-- No required column of any table is null. -/
def Database.isComplete (d : Database) : Bool :=
  d.orgWideDefaults.all DefaultRow.isComplete && d.rules.all RuleRow.isComplete &&
    d.shares.all ShareRow.isComplete && d.users.all UserRow.isComplete &&
    d.memberships.all MembershipRow.isComplete

/-! ### Reading -/

namespace Database

variable {ρ α : Type}

theorem outcome_readAll {read : ρ → Except DatabaseCause α} {rows : List ρ}
    (h : ∀ r ∈ rows, (read r).toOption.isSome = true) :
    (readAll read rows).outcome = .ok (rows.filterMap fun r => (read r).toOption) := by
  have hmap : rows.mapM read = .ok (rows.filterMap fun r => (read r).toOption) := by
    induction rows with
    | nil => rfl
    | cons r rows ih =>
      obtain ⟨a, ha⟩ := Option.isSome_iff_exists.1 (h r List.mem_cons_self)
      have hcons : (r :: rows).filterMap (fun r => (read r).toOption) =
          a :: rows.filterMap fun r => (read r).toOption := List.filterMap_cons_some ha
      rw [List.mapM_cons, ih fun r' hr' => h r' (List.mem_cons_of_mem r hr'), hcons,
        toOption_eq_some.1 ha]
      rfl
  rw [readAll, hmap]
  rfl

theorem outcome_readFirst {read : ρ → Except DatabaseCause α} {rows : List ρ}
    (h : ∀ r ∈ rows, (read r).toOption.isSome = true) (p : ρ → Bool) :
    (readFirst read (rows.filter p)).outcome =
      .ok ((rows.find? p).bind fun r => (read r).toOption) := by
  rw [← List.head?_filter]
  cases hrows : rows.filter p with
  | nil => rfl
  | cons r rest =>
    have hr : r ∈ rows.filter p := by rw [hrows]; exact List.mem_cons_self
    obtain ⟨a, ha⟩ := Option.isSome_iff_exists.1 (h r (List.mem_filter.1 hr).1)
    rw [List.head?_cons, Option.bind_some, ha, readFirst, toOption_eq_some.1 ha]
    rfl

theorem outcome_keepAll (as : List (Except Notice α)) :
    (keepAll as).outcome = .ok (as.filterMap Except.toOption) := by
  induction as with
  | nil => rfl
  | cons a as ih =>
    cases a with
    | ok a => exact Run.outcome_bind_of_ok ih _
    | error notice => exact (Run.outcome_bind_of_ok (Run.outcome_emit _) _).trans ih

theorem outcome_readRules {rows : List RuleRow} (h : ∀ r ∈ rows, r.isComplete = true) :
    (readRules rows).outcome = .ok (rows.filterMap RuleRow.model?) := by
  have hread : ∀ r ∈ rows, r.read.toOption.isSome = true := fun r hr =>
    isSome_toOption_iff.2 (RuleRow.isComplete_iff.1 (h r hr))
  rw [readRules, Run.outcome_bind_of_ok (outcome_readAll hread), outcome_keepAll,
    List.filterMap_map, List.filterMap_filterMap]
  rfl

theorem outcome_readShares {rows : List ShareRow} (h : ∀ r ∈ rows, r.isComplete = true) :
    (readShares rows).outcome = .ok (rows.filterMap ShareRow.model?) := by
  have hread : ∀ r ∈ rows, r.read.toOption.isSome = true := fun r hr =>
    isSome_toOption_iff.2 (ShareRow.isComplete_iff.1 (h r hr))
  rw [readShares, Run.outcome_bind_of_ok (outcome_readAll hread), outcome_keepAll,
    List.filterMap_map, List.filterMap_filterMap]
  rfl

/-! ### Conditions on rows -/

theorem filterMap_filter_eq {f : ρ → Option α} {p : ρ → Bool} {q : α → Bool} {rows : List ρ}
    (h : ∀ r ∈ rows, ∀ a, f r = some a → p r = q a) :
    (rows.filter p).filterMap f = (rows.filterMap f).filter q := by
  rw [List.filterMap_filter, List.filter_filterMap]
  refine List.filterMap_congr fun r hr => ?_
  cases hf : f r with
  | none => simp
  | some a => simp [h r hr a hf, Option.filter]

/-- The model of the first row with a property is the first model with it. -/
theorem find?_bind_eq_find? {f : ρ → Option α} {p : ρ → Bool} {q : α → Bool} {rows : List ρ}
    (hf : ∀ r ∈ rows, (f r).isSome = true) (h : ∀ r ∈ rows, ∀ a, f r = some a → p r = q a) :
    (rows.find? p).bind f = (rows.filterMap f).find? q := by
  rw [← List.head?_filter, ← List.head?_filter, ← filterMap_filter_eq h]
  cases hrows : rows.filter p with
  | nil => rfl
  | cons r rest =>
    have hr : r ∈ rows.filter p := by rw [hrows]; exact List.mem_cons_self
    obtain ⟨a, ha⟩ := Option.isSome_iff_exists.1 (hf r (List.mem_filter.1 hr).1)
    rw [List.head?_cons, Option.bind_some, List.filterMap_cons_some ha, ha, List.head?_cons]

theorem outcome_readIds {kind : IdKind} {name : String} {column : ρ → Option String}
    (model? : ρ → Option α) (id : α → Id kind) {p : ρ → Bool} {q : α → Bool} {rows : List ρ}
    (hmodel : ∀ r ∈ rows, p r = true → ∃ a, model? r = some a ∧ column r = some (id a).text)
    (h : ∀ r ∈ rows, ∀ a, model? r = some a → p r = q a) :
    (readIds name column (rows.filter p)).outcome =
      .ok (((rows.filterMap model?).filter q).map id) := by
  -- the column is read off each row, as the id is off its model
  have hcolumn : ∀ r, (requiredColumn name (column r)).toOption = column r := fun r => by
    cases column r <;> rfl
  have hread : ∀ r ∈ rows.filter p, ∃ a, model? r = some a ∧ column r = some (id a).text :=
    fun r hr => hmodel r (List.mem_filter.1 hr).1 (List.mem_filter.1 hr).2
  rw [readIds, Run.outcome_bind_of_ok (outcome_readAll fun r hr => ?_), Run.outcome_pure,
    ← filterMap_filter_eq h, List.map_filterMap, List.map_filterMap]
  · refine congrArg Except.ok (List.filterMap_congr fun r hr => ?_)
    obtain ⟨a, ha, hid⟩ := hread r hr
    rw [hcolumn, ha, hid]
    rfl
  · obtain ⟨a, -, hid⟩ := hread r hr
    rw [hcolumn, hid]
    rfl

theorem column_eq_iff {kind : IdKind} {i j : Id kind} {column : Option String}
    (h : column = some i.text) : decide (column = some j.text) = decide (i = j) := by
  rw [h, decide_eq_decide, Option.some.injEq, Id.text_inj]

theorem optional_column_eq_iff {kind : IdKind} {i : Option (Id kind)} {j : Id kind}
    {column : Option String} (h : column.map Id.mk = i) :
    decide (column = some j.text) = decide (i = some j) := by
  subst h
  rw [decide_eq_decide]
  cases column with
  | none => simp
  | some text => simp [← Id.text_inj]

/-! ### The order of rules -/

theorem keyLe_trans {as bs cs : List Int} (hab : Timestamp.keyLe as bs = true)
    (hbc : Timestamp.keyLe bs cs = true) : Timestamp.keyLe as cs = true := by
  induction as generalizing bs cs with
  | nil => rfl
  | cons a as ih =>
    obtain _ | ⟨b, bs⟩ := bs
    · cases hab
    · obtain _ | ⟨c, cs⟩ := cs
      · cases hbc
      · simp only [Timestamp.keyLe, Bool.or_eq_true, Bool.and_eq_true, decide_eq_true_eq] at *
        rcases hab with hab | ⟨rfl, hab⟩
        · rcases hbc with hbc | ⟨rfl, -⟩
          · exact .inl (hab.trans hbc)
          · exact .inl hab
        · rcases hbc with hbc | ⟨rfl, hbc⟩
          · exact .inl hbc
          · exact .inr ⟨rfl, ih hab hbc⟩

theorem keyLe_total (as bs : List Int) :
    Timestamp.keyLe as bs = true ∨ Timestamp.keyLe bs as = true := by
  induction as generalizing bs with
  | nil => exact .inl rfl
  | cons a as ih =>
    obtain _ | ⟨b, bs⟩ := bs
    · exact .inr rfl
    · simp only [Timestamp.keyLe, Bool.or_eq_true, Bool.and_eq_true, decide_eq_true_eq]
      rcases lt_trichotomy a b with h | rfl | h
      · exact .inl (.inl h)
      · exact (ih bs).imp (fun h => .inr ⟨rfl, h⟩) fun h => .inr ⟨rfl, h⟩
      · exact .inr (.inl h)

theorem createdNoLater_trans (r s t : RuleRow) (hrs : createdNoLater r s = true)
    (hst : createdNoLater s t = true) : createdNoLater r t = true := by
  unfold createdNoLater at *
  cases hr : r.createdAt <;> cases hs : s.createdAt <;> cases ht : t.createdAt <;>
    simp only [hr, hs, ht, Bool.false_eq_true] at hrs hst ⊢
  exact keyLe_trans hrs hst

theorem createdNoLater_total (r s : RuleRow) :
    (createdNoLater r s || createdNoLater s r) = true := by
  rw [Bool.or_eq_true]
  unfold createdNoLater
  cases r.createdAt <;> cases s.createdAt <;> simp only [Bool.false_eq_true, or_true, true_or]
  exact keyLe_total _ _

/-! ### The contents of tables -/

/-- The store made up of the models of all rows, rules in the order of their creation. -/
def contents (d : Database) : Store where
  orgWideDefaults := d.orgWideDefaults.filterMap DefaultRow.model?
  rules := (d.rules.mergeSort createdNoLater).filterMap RuleRow.model?
  shares := d.shares.filterMap ShareRow.model?
  users := d.users.filterMap UserRow.model?
  memberships := d.memberships.filterMap MembershipRow.model?

section Queries

variable {d : Database} (hd : d.isComplete = true)

include hd

theorem isComplete_of_mem : (∀ r ∈ d.orgWideDefaults, r.isComplete = true) ∧
    (∀ r ∈ d.rules, r.isComplete = true) ∧ (∀ r ∈ d.shares, r.isComplete = true) ∧
    (∀ r ∈ d.users, r.isComplete = true) ∧ ∀ r ∈ d.memberships, r.isComplete = true := by
  simpa only [isComplete, Bool.and_eq_true, List.all_eq_true, and_assoc] using hd

theorem outcome_shares {p : ShareRow → Bool} {q : RecordShare → Bool}
    (h : ∀ r s, r.model? = some s → p r = q s) :
    (readShares (d.shares.filter p)).outcome = .ok (d.contents.shares.filter q) := by
  obtain ⟨-, -, hshares, -, -⟩ := isComplete_of_mem hd
  rw [outcome_readShares fun r hr => hshares r (List.mem_filter.1 hr).1,
    filterMap_filter_eq fun r _ => h r]
  rfl

theorem outcome_parents (type : MemberType) (member : String) :
    (readIds "group_id" MembershipRow.group (d.holdingMember type.name member)).outcome =
      .ok ((d.contents.memberships.filter fun m => m.holds type member).map (·.group)) := by
  obtain ⟨-, -, -, -, hmemberships⟩ := isComplete_of_mem hd
  refine outcome_readIds MembershipRow.model? (·.group) (fun r hr hp => ?_) fun r _ m hm => ?_
  · have htype : r.memberType = some type.name := by
      simp only [Bool.and_eq_true, decide_eq_true_eq] at hp
      exact hp.1
    obtain ⟨m, hm⟩ := MembershipRow.exists_model? (hmemberships r hr) htype
    exact ⟨m, hm, (MembershipRow.columns_of_model? hm).1⟩
  · obtain ⟨-, htype, hmember⟩ := MembershipRow.columns_of_model? hm
    simp [Membership.holds, htype, hmember, MemberType.name_inj]

theorem outcome_members {kind : IdKind} (group : GroupId) (type : MemberType) :
    (readIds "member_id" MembershipRow.member (d.membersOf group.text type.name) :
        Run (List (Id kind))).outcome =
      .ok ((d.contents.membersOf group type).map Id.mk) := by
  obtain ⟨-, -, -, -, hmemberships⟩ := isComplete_of_mem hd
  rw [Store.membersOf, List.map_map]
  refine outcome_readIds MembershipRow.model? (fun m => Id.mk m.member) (fun r hr hp => ?_)
    fun r _ m hm => ?_
  · have htype : r.memberType = some type.name := by
      simp only [Bool.and_eq_true, decide_eq_true_eq] at hp
      exact hp.2
    obtain ⟨m, hm⟩ := MembershipRow.exists_model? (hmemberships r hr) htype
    exact ⟨m, hm, (MembershipRow.columns_of_model? hm).2.2⟩
  · obtain ⟨hgroup, htype, -⟩ := MembershipRow.columns_of_model? hm
    rw [column_eq_iff hgroup]
    simp [htype, MemberType.name_inj]

theorem contents_orgWideDefault (tenant : TenantId) (collection : CollectionId) :
    d.contents.answer (.orgWideDefault tenant collection) =
      (d.orgWideDefaults.find? fun r => r.tenant = some tenant.text &&
        r.collection = some collection.text).bind DefaultRow.model? := by
  obtain ⟨hdefaults, -⟩ := isComplete_of_mem hd
  refine (find?_bind_eq_find? (fun r hr => DefaultRow.isSome_model? (hdefaults r hr))
    fun r _ x hx => ?_).symm
  obtain ⟨ht, hcol, -⟩ := DefaultRow.columns_of_model? hx
  rw [column_eq_iff ht, column_eq_iff hcol]

theorem contents_user (id : UserId) : d.contents.answer (.user id) =
    (d.users.find? fun r => r.id = some id.text).bind UserRow.model? := by
  obtain ⟨-, -, -, husers, -⟩ := isComplete_of_mem hd
  refine (find?_bind_eq_find? (fun r hr => UserRow.isSome_model? (husers r hr))
    fun r _ u hu => ?_).symm
  rw [column_eq_iff (UserRow.columns_of_model? hu).1]

/-- **Complete tables answer** every question about sharing, users and groups as the store of their
models does. -/
theorem outcome_query (permissions : Providers) {c : Query}
    (hc : c.provider ≠ .objectPermissions) :
    (d.query permissions c).outcome = .ok (d.contents.answer c) := by
  obtain ⟨hdefaults, hrules, -, husers, -⟩ := isComplete_of_mem hd
  have husermodels : ∀ r ∈ d.users, r.model?.isSome = true := fun r hr =>
    UserRow.isSome_model? (husers r hr)
  -- each question selects by columns, which hold what the models of the rows say
  cases c with
  | objectPermission user collection => exact absurd rfl hc
  | orgWideDefault tenant collection =>
    rw [contents_orgWideDefault hd]
    exact outcome_readFirst (fun r hr => DefaultRow.isSome_model? (hdefaults r hr)) _
  | activeRules tenant collection =>
    refine (outcome_readRules fun r hr => ?_).trans ?_
    · rw [List.mem_mergeSort] at hr
      exact hrules r (List.mem_filter.1 hr).1
    · -- rows may as well be left out after they are sorted
      rw [← filter_mergeSort createdNoLater_trans createdNoLater_total]
      refine congrArg Except.ok (filterMap_filter_eq fun r _ rule hrule => ?_)
      have h := RuleRow.model?_eq_some.1 hrule
      rw [column_eq_iff h.tenant, column_eq_iff h.collection, h.active]
      simp
  | directShares collection record user =>
    refine outcome_shares hd fun r share hshare => ?_
    obtain ⟨-, hcol, hrec, hkind, hid, -⟩ := ShareRow.columns_of_model? hshare
    rw [column_eq_iff hcol, column_eq_iff hrec, hkind, hid]
    cases share.sharedWith <;> simp [ShareSubject.kind, ShareSubject.idText, Id.text_inj]
  | groupShares collection record groups =>
    refine outcome_shares hd fun r share hshare => ?_
    obtain ⟨-, hcol, hrec, hkind, hid, -⟩ := ShareRow.columns_of_model? hshare
    rw [column_eq_iff hcol, column_eq_iff hrec, hkind, hid]
    cases share.sharedWith with
    | user id => simp [ShareSubject.kind]
    | group g =>
      rw [Bool.eq_iff_iff]
      simp [ShareSubject.kind, ShareSubject.idText, Id.text_inj]
  | collectionShares tenant collection =>
    refine outcome_shares hd fun r share hshare => ?_
    obtain ⟨ht, hcol, -⟩ := ShareRow.columns_of_model? hshare
    rw [column_eq_iff ht, column_eq_iff hcol, Bool.and_comm]
  | user id =>
    rw [contents_user hd]
    exact outcome_readFirst husermodels _
  | subordinates manager =>
    refine (outcome_readAll fun r hr => husermodels r (List.mem_filter.1 hr).1).trans ?_
    refine congrArg Except.ok (filterMap_filter_eq fun r _ u hu => ?_)
    obtain ⟨-, -, hmanager, -⟩ := UserRow.columns_of_model? hu
    rw [optional_column_eq_iff hmanager]
  | roleHolders tenant role =>
    refine outcome_readIds UserRow.model? User.id (fun r hr _ => ?_) fun r _ u hu => ?_
    · obtain ⟨u, hu⟩ := Option.isSome_iff_exists.1 (husermodels r hr)
      exact ⟨u, hu, (UserRow.columns_of_model? hu).1⟩
    · obtain ⟨-, htenant, -, hrole⟩ := UserRow.columns_of_model? hu
      have hnone : r.tenant.isNone = u.tenant.isNone := by rw [← htenant, Option.isNone_map]
      rw [optional_column_eq_iff hrole, optional_column_eq_iff htenant, hnone, User.hasRoleIn,
        User.belongsTo]
      cases u.tenant <;> simp
  | directGroups user => exact outcome_parents hd .user user.text
  | parentGroups group =>
    refine (Run.outcome_bind_of_ok (outcome_parents hd .group group.text) _).trans ?_
    simp [Store.answer]
  | directUsers group => exact outcome_members hd group .user
  | childGroups group => exact outcome_members hd group .group

end Queries

end Database

end RecordAccess
