import Mathlib.Order.Nat
import RecordAccess.Engine.Compile
import RecordAccess.Engine.Decide
import RecordAccess.Proofs.Histories

/-!
# What runs inside an operation leave behind

Inside an operation nothing is counted as a decision or a filter.  An error is made exactly where
one of the questions meets a provider that is failing, and only one, since it ends the operation.
Groups above a user are looked for only to resolve the caller: once where the caller is a user, and
never where the caller is a subject.  `Run.Spends` says so of a run.  It holds of runs composed of
runs it holds of (`Run.Spends.bind`), so it holds of all that decides and compiles, down to
`Engine.FailsAt.decide` and `Engine.FailsAt.compile`.
-/

namespace RecordAccess

/-! ### Kinds of events -/

namespace Event

/-- The label and the access type under which an event counts a decision. -/
def decision? : Event → Option (String × AccessType)
  | .counted (.accessDecision outcome access) => some (outcome, access)
  | _ => none

/-- The kind under which an event counts a filter. -/
def filter? : Event → Option String
  | .counted (.filterBuilt kind) => some kind
  | _ => none

/-- The error that an event reports. -/
def failure? : Event → Option AccessError
  | .logged (.failure error) => some error
  | _ => none

/-- Whether an event counts an error. -/
def isError : Event → Bool
  | .counted (.errorRaised _) => true
  | _ => false

/-- Whether an event counts a walk to the groups above a user. -/
def isUpward : Event → Bool
  | .counted (.groupResolution direction) => direction = "up"
  | _ => false

/-- An event does not count or report what an operation came to. -/
structure IsInner (x : Event) : Prop where
  decision : x.decision? = none
  filter : x.filter? = none
  failure : x.failure? = none

end Event

namespace Run

variable {α β : Type}

/-- How many errors a run made. -/
def errors (r : Run α) : ℕ := r.events.countP Event.isError

/-- How many walks a run took to the groups above a user. -/
def upward (r : Run α) : ℕ := r.events.countP Event.isUpward

/-! ### Spending -/

/-- While some providers are failing, a run makes one error if one of its questions meets them, and
none otherwise; and it stays within a budget of walks upward, of which its value tells what is
left. -/
inductive Spends (failing : List Provider) (budget : ℕ) (left : α → ℕ) (r : Run α) : Prop
  | gives (a : α) (outcome : r.outcome = .ok a) (inner : ∀ x ∈ r.events, x.IsInner)
    (asked : ∀ c ∈ r.calls, c.provider ∉ failing) (errors : r.errors = 0)
    (upward : r.upward + left a ≤ budget)
  | fails (error : AccessError) (outcome : r.outcome = .error error)
    (inner : ∀ x ∈ r.events, x.IsInner) (asked : ∃ c ∈ r.calls, c.provider ∈ failing)
    (errors : r.errors = 1) (upward : r.upward ≤ budget)

namespace Spends

variable {failing : List Provider} {budget : ℕ} {left : α → ℕ}

theorem pure {a : α} (h : left a ≤ budget) : Spends failing budget left (Pure.pure a) :=
  .gives a rfl (fun _ hx => by cases hx) (by simp) rfl ((Nat.zero_add _).trans_le h)

theorem emit {x : Event} (hinner : x.IsInner) (hquery : x.query? = none)
    (herror : x.isError = false) (hupward : x.isUpward = false) :
    Spends failing budget (fun _ => budget) (Run.emit x) := by
  refine .gives () rfl (by simpa [Run.emit] using hinner) ?_ ?_ ?_
  · simp [calls, Run.emit, hquery]
  · simp [errors, Run.emit, herror]
  · simp [upward, Run.emit, hupward]

theorem countUp : Spends failing (budget + 1) (fun _ => budget)
    (Run.count (.groupResolution "up")) := by
  refine .gives () rfl ?_ (by simp) rfl ?_
  · simpa [Run.count, Run.emit] using (⟨rfl, rfl, rfl⟩ : Event.IsInner _)
  · exact (Nat.add_comm 1 budget).le

/-- **What composed runs spend** is what their parts spend. -/
theorem bind {r : Run α} {f : α → Run β} {left' : β → ℕ} (h : Spends failing budget left r)
    (hf : ∀ a, Spends failing (left a) left' (f a)) :
    Spends failing budget left' (r >>= f) := by
  -- a failure ends the run, so only a run that gives its value leaves anything to the next
  cases h with
  | fails error hr hinner hasked herrors hupward =>
    have hevents := events_bind_of_error hr f
    refine .fails error (outcome_bind_of_error hr f) (hevents ▸ hinner) ?_ ?_ ?_
    · rwa [calls_bind_of_error hr]
    · rwa [errors, hevents]
    · rwa [upward, hevents]
  | gives a hr hinner hasked herrors hupward =>
    have hevents := events_bind_of_ok hr f
    have hcalls := calls_bind_of_ok hr f
    have herrors' : (r >>= f).errors = r.errors + (f a).errors := by
      rw [errors, hevents, List.countP_append]
      rfl
    have hupward' : (r >>= f).upward = r.upward + (f a).upward := by
      rw [upward, hevents, List.countP_append]
      rfl
    cases hf a with
    | gives b hfr hinnerf haskedf herrorsf hupwardf =>
      refine .gives b ((outcome_bind_of_ok hr f).trans hfr) ?_ ?_ (by omega) (by omega)
      · rw [hevents]
        exact List.forall_mem_append.2 ⟨hinner, hinnerf⟩
      · rw [hcalls]
        exact List.forall_mem_append.2 ⟨hasked, haskedf⟩
    | fails error hfr hinnerf haskedf herrorsf hupwardf =>
      obtain ⟨c, hc, hfailing⟩ := haskedf
      refine .fails error ((outcome_bind_of_ok hr f).trans hfr) ?_
        ⟨c, hcalls ▸ List.mem_append_right _ hc, hfailing⟩ (by omega) (by omega)
      rw [hevents]
      exact List.forall_mem_append.2 ⟨hinner, hinnerf⟩

end Spends

end Run

/-! ### Walks -/

namespace Walk

open Run

variable {α β : Type} [DecidableEq α] {step : α → Run (List β × List α)}
  {failing : List Provider} {budget : ℕ}

theorem spends_visit (hstep : ∀ a, Spends failing budget (fun _ => budget) (step a)) (as : List α)
    (m : Met α) (found : List β) :
    Spends failing budget (fun _ => budget) (visit step as m found) := by
  induction as generalizing m found with
  | nil => exact .pure le_rfl
  | cons a as ih => exact (hstep a).bind fun r => ih _ _

theorem spends_rounds (hstep : ∀ a, Spends failing budget (fun _ => budget) (step a)) (n : ℕ)
    (w : Walk α β) : Spends failing budget (fun _ => budget) (rounds step n w) := by
  induction n generalizing w with
  | zero => exact .pure le_rfl
  | succ n ih =>
    unfold rounds
    split
    · exact .pure le_rfl
    · exact (spends_visit hstep w.frontier ⟨w.seen, []⟩ w.found).bind fun r => ih _

end Walk

/-! ### Operations of engines -/

/-- What it may cost to resolve a caller. -/
def Caller.walks : Caller → ℕ
  | .user _ => 1
  | .subject _ => 0

/-- The questions of an engine fail where a provider is failing, with one error each. -/
def Engine.FailsAt (e : Engine) (failing : List Provider) : Prop :=
  ∀ c budget, (e.ask c).Spends failing budget fun _ => budget

theorem Store.failsAt_engine (s : Store) (settings : EngineSettings) :
    (s.engine settings).FailsAt s.failing := by
  intro c budget
  have hasked : (Event.asked c).IsInner := ⟨rfl, rfl, rfl⟩
  have hraised : ∀ code, (Event.counted (.errorRaised code)).IsInner := fun _ => ⟨rfl, rfl, rfl⟩
  show Run.Spends s.failing budget (fun _ => budget) (Run.emit (.asked c) >>= fun _ => s.ask c)
  by_cases hc : c.provider ∈ s.failing
  · rw [ask, if_pos (List.contains_iff_mem.2 hc)]
    exact .fails _ rfl (List.forall_mem_cons.2 ⟨hasked, List.forall_mem_singleton.2 (hraised _)⟩)
      ⟨c, List.mem_cons_self, hc⟩ rfl (Nat.zero_le _)
  · rw [ask, if_neg (mt List.contains_iff_mem.1 hc)]
    exact .gives (s.answer c) rfl (List.forall_mem_singleton.2 hasked)
      (List.forall_mem_singleton.2 hc) rfl (Nat.zero_add budget).le

namespace Engine.FailsAt

open Run

variable {e : Engine} {failing : List Provider} (h : e.FailsAt failing) {budget : ℕ}

include h

theorem defaultAccess (tenant : TenantId) (collection : CollectionId) :
    Spends failing budget (fun _ => budget) (e.defaultAccess tenant collection) := by
  refine (h _ _).bind fun found => ?_
  cases found <;> exact .pure le_rfl

/-! ### Groups and users -/

theorem effectiveGroups (user : UserId) :
    Spends failing (budget + 1) (fun _ => budget) (e.effectiveGroups user) := by
  have hstep : ∀ g, Spends failing budget (fun _ => budget) (e.parentStep g) :=
    fun g => (h _ _).bind fun edges => .pure le_rfl
  unfold Engine.effectiveGroups
  refine .bind .countUp fun _ => (h _ _).bind fun direct =>
    (Walk.spends_rounds hstep _ _).bind fun w => ?_
  split
  · exact .pure le_rfl
  · exact .bind (.emit ⟨rfl, rfl, rfl⟩ rfl rfl rfl) fun _ =>
      .bind (.emit ⟨rfl, rfl, rfl⟩ rfl rfl rfl) fun _ => .pure le_rfl

theorem effectiveUsers (group : GroupId) :
    Spends failing budget (fun _ => budget) (e.effectiveUsers group) := by
  have hstep : ∀ g, Spends failing budget (fun _ => budget) (e.memberStep g) :=
    fun g => (h _ _).bind fun users => (h _ _).bind fun children => .pure le_rfl
  exact .bind (.emit ⟨rfl, rfl, rfl⟩ rfl rfl rfl) fun _ =>
    (Walk.spends_rounds hstep _ _).bind fun w => .pure le_rfl

theorem subordinates (user : UserId) :
    Spends failing budget (fun _ => budget) (e.subordinates user) := by
  have hstep : ∀ m, Spends failing budget (fun _ => budget) (e.reportStep m) :=
    fun m => (h _ _).bind fun users => .pure le_rfl
  exact (Walk.spends_rounds hstep _ _).bind fun w => .pure le_rfl

theorem managesFrom (user : UserId) (n : ℕ) (current : UserId) (visited : List UserId) :
    Spends failing budget (fun _ => budget) (e.managesFrom user n current visited) := by
  induction n generalizing current visited with
  | zero => exact .pure le_rfl
  | succ n ih =>
    refine (h _ _).bind fun found => ?_
    split
    · exact .pure le_rfl
    · split
      · exact .pure le_rfl
      · split
        · exact .pure le_rfl
        · exact ih _ _

theorem resolveSubject (user : UserId) : Spends failing 1 (fun _ => 0) (e.resolveSubject user) :=
  (h _ _).bind fun _ => (h.effectiveGroups user).bind fun _ => .pure le_rfl

theorem subjectOf (caller : Caller) :
    Spends failing caller.walks (fun _ => 0) (e.subjectOf caller) := by
  cases caller with
  | user id => exact h.resolveSubject id
  | subject s => exact .pure le_rfl

/-! ### Decisions -/

theorem managesOwner (caller : Caller) (record : Record) :
    Spends failing budget (fun _ => budget) (e.managesOwner caller record) := by
  unfold Engine.managesOwner
  split
  · exact .pure le_rfl
  · exact h.managesFrom _ _ _ _

theorem firstCovering (record : Record) (rules : List (SharingRule × RecordScope)) :
    Spends failing budget (fun _ => budget) (e.firstCovering record rules) := by
  have howner : ∀ owner p,
      Spends failing budget (fun _ => budget) (e.ownerIn owner record.tenant p) := by
    intro owner p
    cases p with
    | user id => exact .pure le_rfl
    | group g => exact (h.effectiveUsers g).bind fun users => .pure le_rfl
    | queue g => exact (h.effectiveUsers g).bind fun users => .pure le_rfl
    | role r => exact (h _ _).bind fun found => .pure le_rfl
  have hcovers : ∀ scope, Spends failing budget (fun _ => budget) (e.covers record scope) := by
    intro scope
    unfold Engine.covers
    split
    · exact .pure le_rfl
    · split
      · exact .pure le_rfl
      · exact howner _ _
  -- no rule spends anything, however many are gone through
  induction rules with
  | nil => exact .pure le_rfl
  | cons rule rules ih =>
    refine (hcovers rule.2).bind fun covered => ?_
    split
    · exact .pure le_rfl
    · exact ih

/-- What is left is what it takes to resolve the caller that is given back. -/
theorem grantingRule (caller : Caller) (record : Record) (access : AccessType) :
    Spends failing caller.walks (fun x => x.1.walks) (e.grantingRule caller record access) := by
  refine (h _ _).bind fun rules => ?_
  split
  · exact .pure le_rfl
  · exact (h.subjectOf caller).bind fun s =>
      (h.firstCovering record _).bind fun rule => .pure le_rfl

theorem grantingShare (caller : Caller) (record : Record) (access : AccessType) :
    Spends failing caller.walks (fun _ => 0) (e.grantingShare caller record access) := by
  refine (h _ _).bind fun direct => ?_
  split
  · exact .pure (Nat.zero_le _)
  · refine (h.subjectOf caller).bind fun s => ?_
    split
    · exact .pure le_rfl
    · refine (h _ _).bind fun shares => ?_
      split <;> exact .pure le_rfl

theorem decideRecord (caller : Caller) (record : Record) (access : AccessType) :
    Spends failing caller.walks (fun _ => 0) (e.decideRecord caller record access) := by
  unfold Engine.decideRecord
  split
  · exact .pure (Nat.zero_le _)
  · refine (h.managesOwner caller record).bind fun manages => ?_
    split
    · exact .pure (Nat.zero_le _)
    · refine (h.grantingRule caller record access).bind fun found => ?_
      obtain ⟨caller', rule⟩ := found
      cases rule with
      | some rule => exact .pure (Nat.zero_le _)
      | none =>
        refine (h.grantingShare caller' record access).bind fun share => ?_
        cases share <;> exact .pure le_rfl

/-- **A decision resolves the caller once at most**, and makes one error at most. -/
theorem decide (caller : Caller) (record : Record) (access : AccessType) :
    Spends failing caller.walks (fun _ => 0) (e.decide caller record access) := by
  refine (h _ _).bind fun permission => ?_
  split
  · exact .pure (Nat.zero_le _)
  · split
    · exact .pure (Nat.zero_le _)
    · refine (h.defaultAccess _ _).bind fun baseline => ?_
      split
      · exact .pure (Nat.zero_le _)
      · exact h.decideRecord caller record access

/-! ### Filters -/

theorem ruleOwners (tenant : TenantId) (rules : List (SharingRule × RecordScope))
    (owners : List UserId) :
    Spends failing budget (fun _ => budget) (e.ruleOwners tenant rules owners) := by
  have hprincipal : ∀ p, Spends failing budget (fun _ => budget) (e.principalUsers tenant p) := by
    intro p
    cases p with
    | user id => exact .pure le_rfl
    | group g => exact h.effectiveUsers g
    | queue g => exact h.effectiveUsers g
    | role r => exact h (.roleHolders tenant r) budget
  induction rules generalizing owners with
  | nil => exact .pure le_rfl
  | cons rule rules ih =>
    obtain ⟨rule, _ | principal⟩ := rule
    · exact .pure le_rfl
    · exact (hprincipal principal).bind fun users => ih _

theorem sharedOwners (caller : Caller) (tenant : TenantId) (collection : CollectionId)
    (access : AccessType) :
    Spends failing caller.walks (fun x => x.1.walks)
      (e.sharedOwners caller tenant collection access) := by
  refine (h _ _).bind fun rules => ?_
  split
  · exact .pure le_rfl
  · exact (h.subjectOf caller).bind fun s =>
      (h.ruleOwners tenant _ []).bind fun owners => .pure le_rfl

theorem compileRecords (caller : Caller) (tenant : TenantId) (collection : CollectionId)
    (access : AccessType) :
    Spends failing caller.walks (fun _ => 0)
      (e.compileRecords caller tenant collection access) := by
  refine (h.subordinates _).bind fun reports =>
    (h.sharedOwners caller tenant collection access).bind fun shared => ?_
  obtain ⟨caller', owners⟩ := shared
  cases owners with
  | none => exact .pure (Nat.zero_le _)
  | some owners =>
    have hrecords : Spends failing caller'.walks (fun _ => 0)
        (e.sharedRecords caller' tenant collection access) :=
      (h.subjectOf caller').bind fun s => (h _ _).bind fun shares => .pure le_rfl
    exact hrecords.bind fun records => .pure le_rfl

/-- **A filter resolves the caller once at most**, and makes one error at most. -/
theorem compile (caller : Caller) (tenant : TenantId) (collection : CollectionId)
    (access : AccessType) :
    Spends failing caller.walks (fun _ => 0) (e.compile caller tenant collection access) := by
  refine (h _ _).bind fun permission => ?_
  split
  · exact .pure (Nat.zero_le _)
  · split
    · exact .pure (Nat.zero_le _)
    · refine (h.defaultAccess _ _).bind fun baseline => ?_
      split
      · exact .pure (Nat.zero_le _)
      · exact h.compileRecords caller tenant collection access

end Engine.FailsAt

end RecordAccess
