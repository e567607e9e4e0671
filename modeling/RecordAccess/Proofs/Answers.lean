import RecordAccess.Proofs.Closures
import RecordAccess.Proofs.Decisions
import RecordAccess.Proofs.Likeness
import RecordAccess.Proofs.Managers
import RecordAccess.Proofs.Predicates

/-!
# Engines that are answered alike

Two engines need not be given identical answers to come to the same results.  Ids that are collected
into sets may come in another order or repeatedly, and shares of other tenants may stand among those
of a record (`Query.Agree`).  Engines that are answered alike on the questions of a tenant and a
collection decide and filter alike (`Engine.Alike.outcome_evaluateFor`,
`Engine.Alike.outcome_filterFor`), errors included.
-/

namespace RecordAccess

/-! ### Answers -/

namespace Query

/-- The questions about sharing, users and groups that concern a collection of a tenant. -/
def Concerns (tenant : TenantId) (collection : CollectionId) : Query → Prop
  | .objectPermission .. => False
  | .orgWideDefault t c => t = tenant ∧ c = collection
  | .activeRules t c => t = tenant ∧ c = collection
  | .directShares c _ _ => c = collection
  | .groupShares c _ groups => c = collection ∧ groups ≠ []
  | .collectionShares t c => t = tenant ∧ c = collection
  | .roleHolders t _ => t = tenant
  | .user _ | .subordinates _ | .directGroups _ | .parentGroups _ | .directUsers _
  | .childGroups _ => True

/-- Two answers to a question are the same for a tenant.  The order of what is collected into sets
does not count, and the shares of a record may be joined by those of other tenants. -/
def Agree (tenant : TenantId) : (c : Query) → c.Answer → c.Answer → Prop
  | .objectPermission .., a', a => a' = a
  | .orgWideDefault .., a', a => a' = a
  | .activeRules .., a', a => a' = a
  | .user _, a', a => a' = a
  | .directShares .., a', a =>
    a'.filter (fun s => s.tenant = tenant) = a.filter fun s => s.tenant = tenant
  | .groupShares .., a', a =>
    a'.filter (fun s => s.tenant = tenant) = a.filter fun s => s.tenant = tenant
  | .collectionShares .., a', a => SameMembers a' a
  | .subordinates _, a', a => SameMembers a' a
  | .roleHolders .., a', a => SameMembers a' a
  | .directGroups _, a', a => SameMembers a' a
  | .parentGroups _, a', a => SameMembers a' a
  | .directUsers _, a', a => SameMembers a' a
  | .childGroups _, a', a => SameMembers a' a

theorem Concerns.provider_ne {tenant : TenantId} {collection : CollectionId} {c : Query}
    (hc : c.Concerns tenant collection) : c.provider ≠ .objectPermissions := by
  cases c with
  | objectPermission => exact hc.elim
  | _ => exact Provider.noConfusion

end Query

theorem find?_gives_eq {tenant : TenantId} {shares' shares : List RecordShare}
    (h : shares'.filter (fun s => s.tenant = tenant) = shares.filter fun s => s.tenant = tenant)
    (access : AccessType) :
    shares'.find? (fun s => s.gives tenant access) =
      shares.find? fun s => s.gives tenant access := by
  have hfind : ∀ l : List RecordShare, l.find? (fun s => s.gives tenant access) =
      (l.filter fun s => s.tenant = tenant).find? fun s => s.level.satisfies access := by
    intro l
    rw [List.find?_filter]
    congr 1
    funext s
    simp [RecordShare.gives]
  rw [hfind, hfind, h]

namespace Engine

/-- Two engines are served alike by a provider, which fails for both or answers both. -/
inductive Served (tenant : TenantId) (collection : CollectionId) (e' e : Engine)
    (p : Provider) : Prop
  | never (error : AccessError) (refused : ∀ c : Query, c.provider = p →
      c.Concerns tenant collection →
        (e'.ask c).outcome = .error error ∧ (e.ask c).outcome = .error error)
  | always (agree : ∀ c : Query, c.provider = p → c.Concerns tenant collection →
      ∃ a' a, (e'.ask c).outcome = .ok a' ∧ (e.ask c).outcome = .ok a ∧ c.Agree tenant a' a)

/-- Two engines have the same settings and are answered alike for a collection of a tenant. -/
structure Alike (tenant : TenantId) (collection : CollectionId) (e' e : Engine) : Prop where
  settings : e'.settings = e.settings
  permission : ∀ user, (e'.ask (.objectPermission user collection)).outcome =
    (e.ask (.objectPermission user collection)).outcome
  served : ∀ p, Served tenant collection e' e p

namespace Alike

open Run

variable {tenant : TenantId} {collection : CollectionId} {e' e : Engine}
  (h : Alike tenant collection e' e)

include h

theorem ask {c : Query} (hc : c.Concerns tenant collection) :
    Run.Alike (c.Agree tenant) (e'.ask c) (e.ask c) := by
  cases h.served c.provider with
  | never error hrefused =>
    obtain ⟨ha', ha⟩ := hrefused c rfl hc
    exact .failed error ha' ha
  | always hagree =>
    obtain ⟨a', a, ha', ha, hsame⟩ := hagree c rfl hc
    exact .given a' a ha' ha hsame

theorem defaultAccess :
    Run.Alike Eq (e'.defaultAccess tenant collection) (e.defaultAccess tenant collection) := by
  refine (h.ask (c := .orgWideDefault tenant collection) ⟨rfl, rfl⟩).bind_same fun found => ?_
  cases found <;> exact .same _

/-! ### Groups and users -/

theorem stepsAlike_parentStep : Walk.StepsAlike e'.parentStep e.parentStep := by
  cases h.served .groups with
  | never error hrefused =>
    refine .never error fun g => ?_
    obtain ⟨ha', ha⟩ := hrefused (.parentGroups g) rfl trivial
    exact ⟨outcome_bind_of_error ha' _, outcome_bind_of_error ha _⟩
  | always hagree =>
    refine .always fun g => ?_
    obtain ⟨a', a, ha', ha, hsame⟩ := hagree (.parentGroups g) rfl trivial
    exact ⟨_, _, outcome_bind_of_ok ha' _, outcome_bind_of_ok ha _, .refl _, hsame.map _⟩

theorem stepsAlike_memberStep : Walk.StepsAlike e'.memberStep e.memberStep := by
  cases h.served .groups with
  | never error hrefused =>
    refine .never error fun g => ?_
    obtain ⟨ha', ha⟩ := hrefused (.directUsers g) rfl trivial
    exact ⟨outcome_bind_of_error ha' _, outcome_bind_of_error ha _⟩
  | always hagree =>
    refine .always fun g => ?_
    obtain ⟨us', us, hus', hus, husers⟩ := hagree (.directUsers g) rfl trivial
    obtain ⟨gs', gs, hgs', hgs, hgroups⟩ := hagree (.childGroups g) rfl trivial
    exact ⟨(us', gs'), (us, gs), (outcome_bind_of_ok hus' _).trans (outcome_bind_of_ok hgs' _),
      (outcome_bind_of_ok hus _).trans (outcome_bind_of_ok hgs _), husers, hgroups⟩

theorem stepsAlike_reportStep : Walk.StepsAlike e'.reportStep e.reportStep := by
  cases h.served .users with
  | never error hrefused =>
    refine .never error fun m => ?_
    obtain ⟨ha', ha⟩ := hrefused (.subordinates m) rfl trivial
    exact ⟨outcome_bind_of_error ha' _, outcome_bind_of_error ha _⟩
  | always hagree =>
    refine .always fun m => ?_
    obtain ⟨us', us, hus', hus, husers⟩ := hagree (.subordinates m) rfl trivial
    refine ⟨_, _, outcome_bind_of_ok hus' _, outcome_bind_of_ok hus _, husers.map _, ?_⟩
    dsimp only
    rw [h.settings]
    split
    · exact husers.map _
    · exact .refl _

theorem effectiveGroups (user : UserId) :
    Run.Alike Eq (e'.effectiveGroups user) (e.effectiveGroups user) := by
  unfold Engine.effectiveGroups
  rw [h.settings]
  refine (Run.Alike.count _).bind_same fun _ =>
    (h.ask (c := .directGroups user) trivial).bind fun direct' direct hdirect =>
      (h.stepsAlike_parentStep.rounds hdirect _).bind fun w' w hseen => ?_
  -- what is reported of groups left unexpanded does not count
  refine .of_outcome_eq ?_
  have hvalue : ∀ w : Walk GroupId Unit, Run.outcome (if w.frontier.isEmpty
      then Pure.pure (sortedGroups w.seen)
      else do
        Run.log (.depthReached user e.settings.maxGroupDepth w.frontier.length)
        Run.count .depthTruncation
        Pure.pure (sortedGroups w.seen)) = .ok (sortedGroups w.seen) := by
    intro w
    split <;> rfl
  rw [hvalue, hvalue, sortedGroups_congr hseen]

theorem effectiveUsers (group : GroupId) :
    Run.Alike Eq (e'.effectiveUsers group) (e.effectiveUsers group) := by
  have hwalk := h.stepsAlike_memberStep.walk (fun _ _ => mem_nestedGroups_of_leads)
    (fun _ _ => mem_nestedGroups_of_leads) group
  exact (Run.Alike.count _).bind_same fun _ =>
    hwalk.bind fun w' w hfound => .pure (sortedUsers_congr hfound)

theorem subordinates (user : UserId) :
    Run.Alike Eq (e'.subordinates user) (e.subordinates user) := by
  have hwalk := h.stepsAlike_reportStep.walk (fun _ _ => mem_managedUsers_of_leads)
    (fun _ _ => mem_managedUsers_of_leads) user
  exact hwalk.bind fun w' w hfound => .pure (sortedUsers_congr hfound)

theorem managesFrom (user : UserId) (n : ℕ) (current : UserId) (visited : List UserId) :
    Run.Alike Eq (e'.managesFrom user n current visited)
      (e.managesFrom user n current visited) := by
  induction n generalizing current visited with
  | zero => exact .same _
  | succ n ih =>
    refine (h.ask (c := .user current) trivial).bind_same fun found => ?_
    rw [h.settings]
    split
    · exact .same _
    · split
      · exact .same _
      · split
        · exact .same _
        · exact ih _ _

theorem isManagerOf (user owner : UserId) :
    Run.Alike Eq (e'.isManagerOf user owner) (e.isManagerOf user owner) := by
  -- the chains may have steps in different number, but neither has too few
  have hlong := h.managesFrom user
    (max (e'.providers.managers.length + 1) (e.providers.managers.length + 1)) owner [owner]
  rwa [managesFrom_of_le (Nat.le_max_left _ _) (climbed_start user owner) (by simp),
    managesFrom_of_le (Nat.le_max_right _ _) (climbed_start user owner) (by simp)] at hlong

theorem resolveSubject (user : UserId) :
    Run.Alike Eq (e'.resolveSubject user) (e.resolveSubject user) :=
  (h.ask (c := .user user) trivial).bind_same fun _ =>
    (h.effectiveGroups user).bind_same fun _ => .same _

theorem subjectOf (caller : Caller) : Run.Alike Eq (e'.subjectOf caller) (e.subjectOf caller) := by
  cases caller with
  | user id => exact h.resolveSubject id
  | subject s => exact .same s

/-! ### Decisions -/

theorem ownerIn (owner : UserId) (p : Principal) :
    Run.Alike Eq (e'.ownerIn owner tenant p) (e.ownerIn owner tenant p) := by
  cases p with
  | user id => exact .same _
  | group g => exact (h.effectiveUsers g).bind_same fun _ => .same _
  | queue g => exact (h.effectiveUsers g).bind_same fun _ => .same _
  | role r => exact (h.ask (c := .user owner) trivial).bind_same fun _ => .same _

end Alike

namespace Alike

open Run

variable {record : Record} {e' e : Engine} (h : Alike record.tenant record.collection e' e)

include h

theorem firstCovering (rules : List (SharingRule × RecordScope)) :
    Run.Alike Eq (e'.firstCovering record rules) (e.firstCovering record rules) := by
  have hcovers : ∀ scope, Run.Alike Eq (e'.covers record scope) (e.covers record scope) := by
    intro scope
    unfold covers
    split
    · exact .same _
    · split
      · exact .same _
      · exact h.ownerIn _ _
  induction rules with
  | nil => exact .same _
  | cons rule rules ih =>
    refine (hcovers rule.2).bind_same fun covered => ?_
    split
    · exact .same _
    · exact ih

theorem grantingRule (caller : Caller) (access : AccessType) :
    Run.Alike Eq (e'.grantingRule caller record access) (e.grantingRule caller record access) := by
  refine (h.ask (c := .activeRules record.tenant record.collection) ⟨rfl, rfl⟩).bind_same
    fun rules => ?_
  split
  · exact .same _
  · exact (h.subjectOf caller).bind_same fun s => (h.firstCovering _).bind_same fun _ => .same _

theorem grantingShare (caller : Caller) (access : AccessType) :
    Run.Alike Eq (e'.grantingShare caller record access)
      (e.grantingShare caller record access) := by
  refine (h.ask (c := .directShares record.collection record.id caller.userId) rfl).bind
    fun direct' direct hdirect => ?_
  rw [find?_gives_eq hdirect access]
  split
  · exact .same _
  · refine (h.subjectOf caller).bind_same fun s => ?_
    split
    · exact .same _
    · rename_i hne
      -- shares with groups are asked for only where there are groups
      have hgroups : sortedGroups s.groups ≠ [] := by
        intro hnil
        refine hne (List.isEmpty_iff.2 (List.eq_nil_iff_forall_not_mem.2 fun g hg => ?_))
        rw [← mem_sortedGroups, hnil] at hg
        cases hg
      refine (h.ask (c := .groupShares record.collection record.id (sortedGroups s.groups))
        ⟨rfl, hgroups⟩).bind fun shares' shares hshares => ?_
      rw [find?_gives_eq hshares access]
      split <;> exact .same _

theorem decideRecord (caller : Caller) (access : AccessType) :
    Run.Alike Eq (e'.decideRecord caller record access) (e.decideRecord caller record access) := by
  have hmanages : Run.Alike Eq (e'.managesOwner caller record) (e.managesOwner caller record) := by
    unfold managesOwner
    split
    · exact .same _
    · exact h.isManagerOf _ _
  -- a source is looked at in both engines or in neither
  unfold Engine.decideRecord
  split
  · exact .same _
  · refine hmanages.bind_same fun manages => ?_
    split
    · exact .same _
    · refine (h.grantingRule caller access).bind_same fun found => ?_
      obtain ⟨caller', rule⟩ := found
      cases rule with
      | some rule => exact .same _
      | none =>
        refine (h.grantingShare caller' access).bind_same fun share => ?_
        cases share <;> exact .same _

/-- **Engines that are answered alike decide alike.** -/
theorem outcome_evaluateFor (caller : Caller) (access : AccessType) :
    (e'.evaluateFor caller record access).outcome =
      (e.evaluateFor caller record access).outcome := by
  rw [Engine.outcome_evaluateFor, Engine.outcome_evaluateFor]
  refine Run.Alike.outcome_eq ?_
  refine (Run.Alike.of_outcome_eq (h.permission caller.userId)).bind_same fun permission => ?_
  split
  · exact .same _
  · split
    · exact .same _
    · refine h.defaultAccess.bind_same fun baseline => ?_
      split
      · exact .same _
      · exact h.decideRecord caller access

end Alike

/-! ### Filters -/

theorem unlessEmpty_congr {α : Type} {clause : List α → FilterClause} {values' values : List α}
    (h : SameMembers values' values) (hclause : clause values' = clause values) :
    unlessEmpty clause values' = unlessEmpty clause values := by
  unfold unlessEmpty
  rw [h.isEmpty_eq, hclause]

namespace Alike

open Run

variable {tenant : TenantId} {collection : CollectionId} {e' e : Engine}
  (h : Alike tenant collection e' e)

include h

theorem ruleOwners (rules : List (SharingRule × RecordScope)) {owners' owners : List UserId}
    (howners : SameMembers owners' owners) :
    Run.Alike (Option.Rel SameMembers) (e'.ruleOwners tenant rules owners')
      (e.ruleOwners tenant rules owners) := by
  have hprincipal : ∀ p, Run.Alike SameMembers (e'.principalUsers tenant p)
      (e.principalUsers tenant p) := by
    have heq : ∀ us' us : List UserId, us' = us → SameMembers us' us := by
      rintro us _ rfl
      exact .refl us
    intro p
    cases p with
    | user id => exact .pure (.refl _)
    | group g => exact (h.effectiveUsers g).mono heq
    | queue g => exact (h.effectiveUsers g).mono heq
    | role r => exact h.ask (c := .roleHolders tenant r) rfl
  -- owners are appended in whatever order they are listed, which their members do not tell
  induction rules generalizing owners' owners with
  | nil => exact .pure (.some howners)
  | cons rule rules ih =>
    obtain ⟨rule, _ | principal⟩ := rule
    · exact .pure .none
    · exact (hprincipal principal).bind fun users' users husers => ih (howners.append husers)

theorem sharedOwners (caller : Caller) (access : AccessType) :
    Run.Alike (fun x' x => x'.1 = x.1 ∧ Option.Rel SameMembers x'.2 x.2)
      (e'.sharedOwners caller tenant collection access)
      (e.sharedOwners caller tenant collection access) := by
  refine (h.ask (c := .activeRules tenant collection) ⟨rfl, rfl⟩).bind_same fun rules => ?_
  split
  · exact .pure ⟨rfl, .some (.refl _)⟩
  · exact (h.subjectOf caller).bind_same fun s =>
      (h.ruleOwners _ (.refl _)).bind fun owners' owners howners => .pure ⟨rfl, howners⟩

theorem sharedRecords (caller : Caller) (access : AccessType) :
    Run.Alike SameMembers (e'.sharedRecords caller tenant collection access)
      (e.sharedRecords caller tenant collection access) :=
  (h.subjectOf caller).bind_same fun _ =>
    (h.ask (c := .collectionShares tenant collection) ⟨rfl, rfl⟩).bind
      fun _ _ hshares => .pure ((hshares.filter _).map _)

theorem compileRecords (caller : Caller) (access : AccessType) :
    Run.Alike Eq (e'.compileRecords caller tenant collection access)
      (e.compileRecords caller tenant collection access) := by
  refine (h.subordinates _).bind_same fun reports =>
    (h.sharedOwners caller access).bind fun shared' shared hshared => ?_
  obtain ⟨caller', owners'⟩ := shared'
  obtain ⟨caller'', owners⟩ := shared
  obtain ⟨rfl, howners⟩ := hshared
  cases howners with
  | none => exact .same _
  | some howners =>
    refine (h.sharedRecords _ access).bind fun records' records hrecords => .pure ?_
    rw [unlessEmpty_congr howners (FilterClause.ownerIn_congr howners),
      unlessEmpty_congr hrecords (FilterClause.idIn_congr hrecords)]

/-- **Engines that are answered alike filter alike.** -/
theorem outcome_filterFor (caller : Caller) (access : AccessType) :
    (e'.filterFor caller tenant collection access).outcome =
      (e.filterFor caller tenant collection access).outcome := by
  rw [Engine.outcome_filterFor, Engine.outcome_filterFor]
  refine Run.Alike.outcome_eq ?_
  refine (Run.Alike.of_outcome_eq (h.permission caller.userId)).bind_same fun permission => ?_
  split
  · exact .same _
  · split
    · exact .same _
    · refine h.defaultAccess.bind_same fun baseline => ?_
      split
      · exact .same _
      · exact h.compileRecords caller access

end Alike

end Engine

end RecordAccess
