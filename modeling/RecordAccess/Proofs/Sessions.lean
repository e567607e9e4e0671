import Mathlib.Algebra.BigOperators.Group.List.Lemmas
import Mathlib.Algebra.GroupWithZero.Nat
import RecordAccess.Proofs.Decisions
import RecordAccess.Proofs.Deployments
import RecordAccess.Proofs.Failures
import RecordAccess.Proofs.Predicates
import RecordAccess.Proofs.Spending

/-!
# Counters of a session

A session changes a deployment and calls its operations, in any order.  Every call leaves behind one
count of its decision or of its filter, and one of its error, as far as it has them
(`Call.accounts`).  The counters of a whole session are therefore the numbers of its calls
(`Deployment.counters_account_for_calls`).
-/

namespace RecordAccess

/-! ### Reading the tally -/

/-- How often a counter was incremented, whatever its labels. -/
def totalOf (name : String) (events : List Event) : ℕ :=
  (((tally events).filter fun entry => entry.1.name = name).map (·.2)).sum

/-- How often a counter was incremented under its labels. -/
def countOf (c : Counter) (events : List Event) : ℕ := ((tally events).lookup c).getD 0

theorem nodup_eraseDups {α : Type} [DecidableEq α] : (l : List α) → l.eraseDups.Nodup
  | [] => List.nodup_nil
  | a :: l => by
    rw [List.eraseDups_cons, List.nodup_cons, List.mem_eraseDups]
    exact ⟨by simp, nodup_eraseDups _⟩
termination_by l => l.length
decreasing_by exact Nat.lt_succ_of_le (List.length_filter_le _ _)

theorem lookup_map_self {α β : Type} [DecidableEq α] (f : α → β) (k : α) (l : List α) :
    (l.map fun a => (a, f a)).lookup k = if k ∈ l then some (f k) else none := by
  induction l with
  | nil => rfl
  | cons a l ih =>
    rw [List.map_cons, List.lookup_cons, ih]
    by_cases hk : k = a
    · simp [hk]
    · simp [hk, beq_false_of_ne hk]

theorem countOf_eq_count (c : Counter) (events : List Event) :
    countOf c events = (events.filterMap Event.counter?).count c := by
  simp only [countOf, tally, lookup_map_self, List.mem_eraseDups]
  split
  · rfl
  · rename_i hc
    exact (List.count_eq_zero.2 hc).symm

theorem totalOf_eq_countP (name : String) (events : List Event) :
    totalOf name events = (events.filterMap Event.counter?).countP (·.name = name) := by
  have hperm : (events.filterMap Event.counter?).eraseDups.Perm
      (events.filterMap Event.counter?).dedup :=
    (List.perm_ext_iff_of_nodup (nodup_eraseDups _) (List.nodup_dedup _)).2 fun c => by simp
  rw [← List.sum_map_count_dedup_filter_eq_countP, totalOf, tally, List.filter_map, List.map_map]
  exact ((hperm.filter _).map _).sum_eq

section Kinds

variable (events : List Event)

theorem totalOf_decisions : totalOf "sharing_access_decisions_total" events =
    (events.filterMap Event.decision?).length := by
  rw [totalOf_eq_countP, List.countP_filterMap, List.length_filterMap_eq_countP]
  congr 1
  funext x
  rcases x with (_ | _ | _ | _ | _) | _ | _ <;> simp [Event.counter?, Event.decision?, Counter.name]

theorem totalOf_filters : totalOf "sharing_filters_built_total" events =
    (events.filterMap Event.filter?).length := by
  rw [totalOf_eq_countP, List.countP_filterMap, List.length_filterMap_eq_countP]
  congr 1
  funext x
  rcases x with (_ | _ | _ | _ | _) | _ | _ <;> simp [Event.counter?, Event.filter?, Counter.name]

theorem totalOf_errors :
    totalOf "sharing_errors_total" events = events.countP Event.isError := by
  rw [totalOf_eq_countP, List.countP_filterMap]
  congr 1
  funext x
  rcases x with (_ | _ | _ | _ | _) | _ | _ <;> simp [Event.counter?, Event.isError, Counter.name]

theorem countOf_accessDecision (label : String) (access : AccessType) :
    countOf (.accessDecision label access) events =
      (events.filterMap Event.decision?).count (label, access) := by
  rw [countOf_eq_count, List.count_filterMap, List.count_filterMap]
  congr 1
  funext x
  rcases x with (_ | _ | _ | _ | _) | _ | _ <;> simp [Event.counter?, Event.decision?]

theorem countOf_filterBuilt (kind : String) :
    countOf (.filterBuilt kind) events = (events.filterMap Event.filter?).count kind := by
  rw [countOf_eq_count, List.count_filterMap, List.count_filterMap]
  congr 1
  funext x
  rcases x with (_ | _ | _ | _ | _) | _ | _ <;> simp [Event.counter?, Event.filter?]

theorem countOf_upward :
    countOf (.groupResolution "up") events = events.countP Event.isUpward := by
  rw [countOf_eq_count, List.count_filterMap]
  congr 1
  funext x
  rcases x with (_ | _ | _ | _ | _) | _ | _ <;>
    simp [Event.counter?, Event.isUpward, beq_eq_decide]

end Kinds

/-! ### What a whole operation leaves behind -/

namespace Run

variable {α β : Type}

theorem events_bind_pure (r : Run α) (f : α → β) :
    (r >>= fun a => Pure.pure (f a)).events = r.events := by
  cases h : r.outcome with
  | ok a => exact (events_bind_of_ok h _).trans (List.append_nil _)
  | error error => exact events_bind_of_error h _

theorem value?_bind_pure (r : Run α) (f : α → β) :
    (r >>= fun a => Pure.pure (f a)).value? = r.value?.map f := by
  cases h : r.outcome with
  | ok a =>
    rw [value?, outcome_bind_of_ok h, value?, h]
    rfl
  | error error =>
    rw [value?, outcome_bind_of_error h, value?, h]
    rfl

theorem events_bind_count (r : Run α) (f : α → Counter) :
    (r >>= fun a => count (f a) >>= fun _ => Pure.pure a).events =
      r.events ++ (r.value?.map fun a => Event.counted (f a)).toList := by
  cases h : r.outcome with
  | ok a =>
    rw [events_bind_of_ok h, value?, h]
    rfl
  | error error =>
    rw [events_bind_of_error h, value?, h]
    exact (List.append_nil _).symm

/-- What a whole operation counts and reports: the decision or the filter that it came to, an error
that was made into no access, one error if it met a failing provider, and some walks upward. -/
structure Accounts (failing : List Provider) (walks : ℕ) (decision? : Option (String × AccessType))
    (filter? : Option String) (failure? : Option AccessError) (r : Run α) : Prop where
  decisions : r.events.filterMap Event.decision? = decision?.toList
  filters : r.events.filterMap Event.filter? = filter?.toList
  failures : r.events.filterMap Event.failure? = failure?.toList
  errors : r.errors = if ∃ c ∈ r.calls, c.provider ∈ failing then 1 else 0
  upward : r.upward ≤ walks

variable {failing : List Provider} {walks : ℕ} {decision? : Option (String × AccessType)}
  {filter? : Option String} {failure? : Option AccessError}

theorem Spends.accounts {left : α → ℕ} {r : Run α} (h : r.Spends failing walks left) :
    r.Accounts failing walks none none none := by
  have hinner : ∀ x ∈ r.events, x.IsInner := by
    cases h <;> assumption
  refine ⟨List.filterMap_eq_nil_iff.2 fun x hx => (hinner x hx).decision,
    List.filterMap_eq_nil_iff.2 fun x hx => (hinner x hx).filter,
    List.filterMap_eq_nil_iff.2 fun x hx => (hinner x hx).failure, ?_, ?_⟩
  · cases h with
    | gives a outcome inner asked errors upward =>
      rw [errors, if_neg fun ⟨c, hc, hfailing⟩ => asked c hc hfailing]
    | fails error outcome inner asked errors upward => rw [errors, if_pos asked]
  · cases h with
    | gives a outcome inner asked errors upward => omega
    | fails error outcome inner asked errors upward => exact upward

theorem Accounts.of_events_eq {r' : Run β} {r : Run α}
    (h : r.Accounts failing walks decision? filter? failure?) (hevents : r'.events = r.events) :
    r'.Accounts failing walks decision? filter? failure? := by
  obtain ⟨hdecisions, hfilters, hfailures, herrors, hupward⟩ := h
  unfold Run.errors Run.calls at herrors
  unfold Run.upward at hupward
  rw [← hevents] at hdecisions hfilters hfailures herrors hupward
  exact ⟨hdecisions, hfilters, hfailures, herrors, hupward⟩

theorem Accounts.append {r' : Run β} {r : Run α} (h : r.Accounts failing walks none none none)
    {more : List Event} (hevents : r'.events = r.events ++ more)
    (hdecisions : more.filterMap Event.decision? = decision?.toList)
    (hfilters : more.filterMap Event.filter? = filter?.toList)
    (hfailures : more.filterMap Event.failure? = failure?.toList)
    (hmore : ∀ x ∈ more, x.isError = false ∧ x.isUpward = false ∧ x.query? = none) :
    r'.Accounts failing walks decision? filter? failure? := by
  -- what is added counts no error and no walk, and asks nothing
  have herrors : more.countP Event.isError = 0 :=
    List.countP_eq_zero.2 fun x hx => by simp [(hmore x hx).1]
  have hupward : more.countP Event.isUpward = 0 :=
    List.countP_eq_zero.2 fun x hx => by simp [(hmore x hx).2.1]
  have hcalls : r'.calls = r.calls := by
    rw [calls, hevents, List.filterMap_append,
      List.filterMap_eq_nil_iff.2 fun x hx => (hmore x hx).2.2, List.append_nil]
    rfl
  refine ⟨?_, ?_, ?_, ?_, ?_⟩
  · rw [hevents, List.filterMap_append, h.decisions, hdecisions]
    rfl
  · rw [hevents, List.filterMap_append, h.filters, hfilters]
    rfl
  · rw [hevents, List.filterMap_append, h.failures, hfailures]
    rfl
  · rw [hcalls, ← h.errors, Run.errors, hevents, List.countP_append, herrors]
    rfl
  · rw [Run.upward, hevents, List.countP_append, hupward]
    exact h.upward

theorem filterMap_singleton {γ δ : Type} (f : γ → Option δ) (x : γ) :
    [x].filterMap f = (f x).toList := by
  cases h : f x <;> simp [h]

theorem Spends.accounts_count {left : α → ℕ} {r : Run α} (h : r.Spends failing walks left)
    (f : α → Counter)
    (hf : ∀ a, (Event.counted (f a)).isError = false ∧ (Event.counted (f a)).isUpward = false) :
    (r >>= fun a => count (f a) >>= fun _ => Pure.pure a).Accounts failing walks
      (r.value?.bind fun a => (Event.counted (f a)).decision?)
      (r.value?.bind fun a => (Event.counted (f a)).filter?) none := by
  have hevents := events_bind_count r f
  cases ha : r.value? with
  | none =>
    rw [ha] at hevents
    exact h.accounts.append hevents rfl rfl rfl (by simp)
  | some a =>
    rw [ha] at hevents
    refine h.accounts.append hevents (filterMap_singleton _ _) (filterMap_singleton _ _) rfl ?_
    exact List.forall_mem_singleton.2 ⟨(hf a).1, (hf a).2, rfl⟩

end Run

/-! ### Kinds of filters -/

namespace Engine

variable {f : Option SharingPredicate}

theorem filterKind_eq_unrestricted : filterKind f = "unrestricted" ↔ f.isNone = true := by
  unfold filterKind
  split <;> [skip; split] <;> simp

theorem filterKind_eq_match_nothing :
    filterKind f = "match_nothing" ↔ (f.any fun p => p.isNothing) = true := by
  unfold filterKind
  split <;> [skip; split] <;> simp_all

theorem filterKind_eq_restricted :
    filterKind f = "restricted" ↔ (f.any fun p => !p.isNothing) = true := by
  unfold filterKind
  split <;> [skip; split] <;> simp_all

theorem filterKind_mem (f : Option SharingPredicate) :
    filterKind f ∈ ["unrestricted", "match_nothing", "restricted"] := by
  unfold filterKind
  split <;> [skip; split] <;> simp

end Engine

/-! ### Calls -/

/-- What can be called: the requests, what is made of decisions and filters, and single
questions. -/
inductive Operation
  | request (r : Request)
  | canAccess (user : UserId) (record : Record) (access : AccessType)
  | canAccessAs (subject : AccessSubject) (record : Record) (access : AccessType)
  | canAccessOrDeny (user : UserId) (record : Record) (access : AccessType)
  | readFilter (user : UserId) (tenant : TenantId) (collection : CollectionId)
  | ask (c : Query)

namespace Operation

/-- What a call gives. -/
@[reducible]
def Answer : Operation → Type
  | .request r => r.Answer
  | .canAccess .. => Bool
  | .canAccessAs .. => Bool
  | .canAccessOrDeny .. => Bool
  | .readFilter .. => Option SharingPredicate
  | .ask c => c.Answer

/-- Operations that decide, and may fail to. -/
def isDecision : Operation → Bool
  | .request (.evaluate ..) => true
  | .request (.evaluateAs ..) => true
  | .canAccess .. => true
  | .canAccessAs .. => true
  | _ => false

/-- Operations that compile a filter. -/
def isFilter : Operation → Bool
  | .request (.filter ..) => true
  | .request (.filterAs ..) => true
  | .readFilter .. => true
  | _ => false

/-- Operations that read an error as no access. -/
def isFailClosed : Operation → Bool
  | .canAccessOrDeny .. => true
  | _ => false

/-- Operations for a subject that is resolved already. -/
def isForSubject : Operation → Bool
  | .request (.evaluateAs ..) => true
  | .request (.filterAs ..) => true
  | .canAccessAs .. => true
  | _ => false

end Operation

/-- Does what is called. -/
def Engine.perform (e : Engine) : (o : Operation) → Run o.Answer
  | .request r => e.answer r
  | .canAccess user record access => e.canAccess user record access
  | .canAccessAs subject record access => e.canAccessAs subject record access
  | .canAccessOrDeny user record access => e.canAccessOrDeny user record access
  | .readFilter user tenant collection => e.readFilter user tenant collection
  | .ask c => e.ask c

/-- An operation, and the deployment that it is called on. -/
structure Call where
  deployment : Deployment
  operation : Operation

namespace Call

variable (c : Call)

/-- What is done for the call. -/
def run : Run c.operation.Answer := c.deployment.engine.perform c.operation

/-- Whether the call gives a value. -/
def returns : Bool := c.run.value?.isSome

/-- Whether the call asks a provider that is failing. -/
def MeetsFailure : Prop := ∃ q ∈ c.run.calls, q.provider ∈ c.deployment.store.failing

instance : DecidablePred MeetsFailure := fun c =>
  inferInstanceAs (Decidable (∃ q ∈ c.run.calls, q.provider ∈ c.deployment.store.failing))

/-- The label of the decision that the call comes to, and the access type.  A call that reads an
error as no access comes to the label of errors. -/
def decision? : Option (String × AccessType) :=
  match c.operation with
  | .request (.evaluate user record access) | .canAccess user record access =>
    (c.deployment.engine.evaluate user record access).value?.map fun d => (d.label, access)
  | .request (.evaluateAs subject record access) | .canAccessAs subject record access =>
    (c.deployment.engine.evaluateAs subject record access).value?.map fun d => (d.label, access)
  | .canAccessOrDeny user record access =>
    match (c.deployment.engine.evaluate user record access).value? with
    | some d => some (d.label, access)
    | none => some ("error", access)
  | _ => none

/-- The filter that the call gives. -/
def filter? : Option (Option SharingPredicate) :=
  match c.operation with
  | .request (.filter user tenant collection access) =>
    (c.deployment.engine.filter user tenant collection access).value?
  | .request (.filterAs subject tenant collection access) =>
    (c.deployment.engine.filterAs subject tenant collection access).value?
  | .readFilter user tenant collection =>
    (c.deployment.engine.readFilter user tenant collection).value?
  | _ => none

/-- The error that the call reads as no access. -/
def failure? : Option AccessError :=
  match c.operation with
  | .canAccessOrDeny user record access =>
    match (c.deployment.engine.evaluate user record access).outcome with
    | .ok _ => none
    | .error error => some error
  | _ => none

end Call

namespace Engine

open Run

variable {e : Engine} {failing : List Provider} (h : e.FailsAt failing)

include h

/-- A decision is counted once, under its label. -/
theorem FailsAt.evaluateFor (caller : Caller) (record : Record) (access : AccessType) :
    (e.evaluateFor caller record access).Accounts failing caller.walks
      ((e.evaluateFor caller record access).value?.map fun d => (d.label, access)) none none := by
  have hvalue : (e.evaluateFor caller record access).value? =
      (e.decide caller record access).value? := by
    rw [value?, outcome_evaluateFor, value?]
  have haccounts := (h.decide caller record access).accounts_count
    (fun d => .accessDecision d.label access) fun _ => ⟨rfl, rfl⟩
  rw [hvalue]
  cases hd : (e.decide caller record access).value? <;> rwa [hd] at haccounts

/-- A filter is counted once, under its kind. -/
theorem FailsAt.filterFor (caller : Caller) (tenant : TenantId) (collection : CollectionId)
    (access : AccessType) :
    (e.filterFor caller tenant collection access).Accounts failing caller.walks none
      ((e.filterFor caller tenant collection access).value?.map filterKind) none := by
  have hvalue : (e.filterFor caller tenant collection access).value? =
      (e.compile caller tenant collection access).value? := by
    rw [value?, outcome_filterFor, value?]
  have haccounts := (h.compile caller tenant collection access).accounts_count
    (fun f => .filterBuilt (filterKind f)) fun _ => ⟨rfl, rfl⟩
  rw [hvalue]
  cases hf : (e.compile caller tenant collection access).value? <;> rwa [hf] at haccounts

/-- An error that is read as no access is logged once, and counted once under its own label. -/
theorem FailsAt.canAccessOrDeny (user : UserId) (record : Record) (access : AccessType) :
    (e.canAccessOrDeny user record access).Accounts failing 1
      (match (e.evaluate user record access).value? with
        | some d => some (d.label, access)
        | none => some ("error", access)) none
      (match (e.evaluate user record access).outcome with
        | .ok _ => none
        | .error error => some error) := by
  have haccounts := h.evaluateFor (.user user) record access
  have hevents : (e.canAccess user record access).events =
      (e.evaluate user record access).events := events_bind_pure _ _
  unfold Engine.canAccessOrDeny
  -- a decision was counted where it was made; only an error is left to count here
  cases hd : (e.evaluate user record access).outcome with
  | ok d =>
    have hcan : (e.canAccess user record access).outcome = .ok d.isGranted :=
      outcome_bind_of_ok hd _
    have hvalue : (e.evaluate user record access).value? = some d := by
      rw [value?, hd]
    change Accounts _ _ ((e.evaluate user record access).value?.map _) _ _ _ at haccounts
    rw [hvalue] at haccounts ⊢
    simp only [hcan]
    exact haccounts.of_events_eq hevents
  | error error =>
    have hcan : (e.canAccess user record access).outcome = .error error :=
      outcome_bind_of_error hd _
    have hvalue : (e.evaluate user record access).value? = none := by
      rw [value?, hd]
    change Accounts _ _ ((e.evaluate user record access).value?.map _) _ _ _ at haccounts
    rw [hvalue] at haccounts ⊢
    simp only [hcan]
    refine haccounts.append (congrArg (· ++ _) hevents) rfl rfl rfl ?_
    exact List.forall_mem_cons.2 ⟨⟨rfl, rfl, rfl⟩, List.forall_mem_singleton.2 ⟨rfl, rfl, rfl⟩⟩

end Engine

namespace Call

/-- **Every call accounts for itself.** -/
theorem accounts (c : Call) :
    c.run.Accounts c.deployment.store.failing (if c.operation.isForSubject then 0 else 1)
      c.decision? (c.filter?.map Engine.filterKind) c.failure? := by
  obtain ⟨d, o⟩ := c
  have h : d.engine.FailsAt d.store.failing := d.store.failsAt_engine d.settings
  cases o with
  | request r =>
    cases r with
    | evaluate user record access => exact h.evaluateFor (.user user) record access
    | evaluateAs subject record access => exact h.evaluateFor (.subject subject) record access
    | filter user tenant collection access =>
      exact h.filterFor (.user user) tenant collection access
    | filterAs subject tenant collection access =>
      exact h.filterFor (.subject subject) tenant collection access
    | resolveSubject user => exact (h.resolveSubject user).accounts
    | effectiveGroups user => exact (h.effectiveGroups user).accounts
    | effectiveUsers group =>
      have hspends : Run.Spends d.store.failing 1 (fun _ => 1) (d.engine.effectiveUsers group) :=
        h.effectiveUsers group
      exact hspends.accounts
  | canAccess user record access =>
    exact (h.evaluateFor (.user user) record access).of_events_eq (Run.events_bind_pure _ _)
  | canAccessAs subject record access =>
    exact (h.evaluateFor (.subject subject) record access).of_events_eq (Run.events_bind_pure _ _)
  | canAccessOrDeny user record access => exact h.canAccessOrDeny user record access
  | readFilter user tenant collection => exact h.filterFor (.user user) tenant collection .read
  | ask q => exact (h q 1).accounts

theorem isSome_decision? (c : Call) :
    c.decision?.isSome = (c.operation.isDecision && c.returns || c.operation.isFailClosed) := by
  obtain ⟨d, o⟩ := c
  -- a truth value is given exactly where a decision is
  cases o with
  | request r =>
    cases r with
    | evaluate user record access =>
      exact Option.isSome_map.trans (Bool.or_false _).symm
    | evaluateAs subject record access =>
      exact Option.isSome_map.trans (Bool.or_false _).symm
    | _ => rfl
  | canAccess user record access =>
    have hvalue := Run.value?_bind_pure (d.engine.evaluate user record access) Decision.isGranted
    refine Option.isSome_map.trans (Eq.trans ?_ (Bool.or_false _).symm)
    exact (congrArg Option.isSome hvalue).trans Option.isSome_map |>.symm
  | canAccessAs subject record access =>
    have hvalue := Run.value?_bind_pure (d.engine.evaluateAs subject record access)
      Decision.isGranted
    refine Option.isSome_map.trans (Eq.trans ?_ (Bool.or_false _).symm)
    exact (congrArg Option.isSome hvalue).trans Option.isSome_map |>.symm
  | canAccessOrDeny user record access =>
    simp only [decision?]
    split <;> rfl
  | readFilter user tenant collection => rfl
  | ask q => rfl

theorem isSome_filter? (c : Call) :
    c.filter?.isSome = (c.operation.isFilter && c.returns) := by
  obtain ⟨d, o⟩ := c
  cases o with
  | request r => cases r <;> rfl
  | _ => rfl

theorem label_ne_error (d : Decision) : d.label ≠ "error" := by
  rcases d with (_ | _ | _ | _ | _ | _ | _ | _) | (_ | _) <;>
    simp [Decision.label, GrantSource.label, DenyReason.label]

/-- Only a call that reads an error as no access comes to the label of errors. -/
theorem decision?_eq_error {c : Call} {access : AccessType} :
    c.decision? = some ("error", access) ↔
      ∃ user record, c.operation = .canAccessOrDeny user record access ∧ c.failure? ≠ none := by
  -- a call that decides has the label of its decision
  have hlabel : ∀ (r : Run Decision) (access' : AccessType),
      (r.value?.map fun d => (d.label, access')) ≠ some ("error", access) := by
    intro r access' h
    obtain ⟨d, -, hd⟩ := Option.map_eq_some_iff.1 h
    exact label_ne_error d (Prod.mk.inj hd).1
  obtain ⟨d, o⟩ := c
  cases o with
  | request r =>
    cases r with
    | evaluate => exact iff_of_false (hlabel _ _) (by simp)
    | evaluateAs => exact iff_of_false (hlabel _ _) (by simp)
    | _ => exact iff_of_false (by simp [decision?]) (by simp)
  | canAccess => exact iff_of_false (hlabel _ _) (by simp)
  | canAccessAs => exact iff_of_false (hlabel _ _) (by simp)
  | canAccessOrDeny user record access' =>
    simp only [decision?, failure?, Run.value?, Operation.canAccessOrDeny.injEq]
    cases (d.engine.evaluate user record access').outcome with
    | ok decision => simp [label_ne_error]
    | error error => simp
  | readFilter => exact iff_of_false (by simp [decision?]) (by simp)
  | ask => exact iff_of_false (by simp [decision?]) (by simp)

end Call

/-! ### Sessions -/

/-- What happens in a session. -/
inductive Step
  | change (c : Change)
  | call (o : Operation)

/-- The calls of a session, each with the deployment as it is by then. -/
def Deployment.calls : Deployment → List Step → List Call
  | _, [] => []
  | d, .change c :: steps => (d.apply c).calls steps
  | d, .call o :: steps => ⟨d, o⟩ :: d.calls steps

/-- What a session leaves behind. -/
def Deployment.events (d : Deployment) (steps : List Step) : List Event :=
  (d.calls steps).flatMap fun c => c.run.events

theorem filterMap_events {α : Type} {f : Event → Option α} {g : Call → Option α}
    (h : ∀ c : Call, c.run.events.filterMap f = (g c).toList) (calls : List Call) :
    (calls.flatMap fun c => c.run.events).filterMap f = calls.filterMap g := by
  rw [List.filterMap_flatMap, List.filterMap_eq_flatMap_toList]
  simp only [h]

theorem countP_errors (calls : List Call) :
    (calls.flatMap fun c => c.run.events).countP Event.isError =
      calls.countP fun c => c.MeetsFailure := by
  induction calls with
  | nil => rfl
  | cons c calls ih =>
    have herrors : c.run.events.countP Event.isError = if c.MeetsFailure then 1 else 0 :=
      c.accounts.errors
    rw [List.flatMap_cons, List.countP_append, ih, herrors, List.countP_cons, Nat.add_comm]
    simp

theorem countP_or_of_disjoint {α : Type} {p q : α → Bool} (h : ∀ a, p a = true → q a = false)
    (as : List α) : as.countP (fun a => p a || q a) = as.countP p + as.countP q := by
  induction as with
  | nil => rfl
  | cons a as ih =>
    simp only [List.countP_cons, ih]
    cases hp : p a with
    | true => simp [h a hp]; omega
    | false => simp; omega

namespace Deployment

theorem countOf_filterBuilt_events (d : Deployment) (steps : List Step) {kind : String}
    {p : Option SharingPredicate → Bool} (h : ∀ f, Engine.filterKind f = kind ↔ p f = true) :
    countOf (.filterBuilt kind) (d.events steps) =
      (d.calls steps).countP fun c => c.filter?.any p := by
  have hfilters := filterMap_events (fun c => c.accounts.filters) (d.calls steps)
  rw [countOf_filterBuilt, events, hfilters, List.count_filterMap]
  congr 1
  funext c
  cases c.filter? with
  | none => rfl
  | some f =>
    rw [Bool.eq_iff_iff, Option.any_some, ← h f]
    simp

/-- **The counters of a session are the numbers of its calls.**  Whatever is changed and made to
fail in between, every decision that a call gives is counted once under its label, and every filter
as none at all, as one that matches nothing or as a restricted one.  An error that is read as no
access is counted as such and logged once, every call that meets a failing provider counts one
error, and a call looks once at most for the groups above a user, never for a subject. -/
theorem counters_account_for_calls (d : Deployment) (steps : List Step) :
    (totalOf "sharing_access_decisions_total" (d.events steps) =
        (d.calls steps).countP (fun c => c.operation.isDecision && c.returns) +
          (d.calls steps).countP (fun c => c.operation.isFailClosed) ∧
      (∀ label access, countOf (.accessDecision label access) (d.events steps) =
        (d.calls steps).countP fun c => c.decision? = some (label, access)) ∧
      ∀ c ∈ d.calls steps,
        (∀ access, c.decision? = some ("error", access) ↔ ∃ user record,
          c.operation = .canAccessOrDeny user record access ∧ c.failure? ≠ none) ∧
        c.run.events.filterMap Event.failure? = c.failure?.toList) ∧
    (totalOf "sharing_filters_built_total" (d.events steps) =
        (d.calls steps).countP (fun c => c.operation.isFilter && c.returns) ∧
      countOf (.filterBuilt "unrestricted") (d.events steps) =
        (d.calls steps).countP (fun c => c.filter?.any fun f => f.isNone) ∧
      countOf (.filterBuilt "match_nothing") (d.events steps) =
        (d.calls steps).countP (fun c => c.filter?.any fun f => f.any fun p => p.isNothing) ∧
      countOf (.filterBuilt "restricted") (d.events steps) =
        (d.calls steps).countP (fun c => c.filter?.any fun f => f.any fun p => !p.isNothing) ∧
      ∀ kind, kind ∉ ["unrestricted", "match_nothing", "restricted"] →
        countOf (.filterBuilt kind) (d.events steps) = 0) ∧
    totalOf "sharing_errors_total" (d.events steps) =
      (d.calls steps).countP (fun c => c.MeetsFailure) ∧
    ∀ c ∈ d.calls steps, countOf (.groupResolution "up") c.run.events ≤ 1 ∧
      (c.operation.isForSubject = true → countOf (.groupResolution "up") c.run.events = 0) := by
  have hdecisions := filterMap_events (fun c => c.accounts.decisions) (d.calls steps)
  have hfilters := filterMap_events (fun c => c.accounts.filters) (d.calls steps)
  refine ⟨⟨?_, fun label access => ?_, fun c _ => ⟨fun _ => Call.decision?_eq_error,
    c.accounts.failures⟩⟩, ⟨?_, ?_, ?_, ?_, fun kind hkind => ?_⟩, ?_, fun c _ => ?_⟩
  · -- no operation is of both sorts, so the calls of each are counted apart
    rw [totalOf_decisions, events, hdecisions, List.length_filterMap_eq_countP]
    simp only [Call.isSome_decision?]
    refine countP_or_of_disjoint (fun c hc => ?_) _
    rw [Bool.and_eq_true] at hc
    cases ho : c.operation <;> simp_all [Operation.isDecision, Operation.isFailClosed]
  · rw [countOf_accessDecision, events, hdecisions, List.count_filterMap]
    simp only [beq_eq_decide]
  · rw [totalOf_filters, events, hfilters, List.length_filterMap_eq_countP]
    simp only [Option.isSome_map, Call.isSome_filter?]
  · exact d.countOf_filterBuilt_events steps fun f => Engine.filterKind_eq_unrestricted
  · exact d.countOf_filterBuilt_events steps fun f => Engine.filterKind_eq_match_nothing
  · exact d.countOf_filterBuilt_events steps fun f => Engine.filterKind_eq_restricted
  · -- no filter is of any other kind
    have hother : ∀ f, Engine.filterKind f = kind ↔ false = true := fun f =>
      iff_of_false (fun hf => hkind (hf ▸ Engine.filterKind_mem f)) (by decide)
    rw [d.countOf_filterBuilt_events steps hother]
    simp
  · rw [totalOf_errors, events, countP_errors]
  · have hupward : c.run.events.countP Event.isUpward ≤
        if c.operation.isForSubject then 0 else 1 := c.accounts.upward
    rw [countOf_upward]
    refine ⟨hupward.trans ?_, fun hsubject => ?_⟩
    · split <;> omega
    · rwa [if_pos hsubject, Nat.le_zero] at hupward

/-- A private collection is asked about while the groups fail, and after that again, by a user who
may do less and then more with it. -/
def interruptedSession : List Step :=
  [.change (.store (.orgWideDefault ⟨⟨"t"⟩, ⟨"c"⟩, .privateAccess⟩)),
    .change (.store (.failProvider .groups)),
    .call (.canAccessOrDeny ⟨"ann"⟩ ⟨⟨"t"⟩, ⟨"c"⟩, ⟨"r"⟩, none⟩ .read),
    .call (.readFilter ⟨"ann"⟩ ⟨"t"⟩ ⟨"c"⟩),
    .change (.store (.restoreProvider .groups)),
    .call (.canAccess ⟨"ann"⟩ ⟨⟨"t"⟩, ⟨"c"⟩, ⟨"r"⟩, none⟩ .read),
    .call (.request (.filter ⟨"ann"⟩ ⟨"t"⟩ ⟨"c"⟩ .delete)),
    .change (.store (.permission ⟨"ann"⟩ ⟨"c"⟩ .none)),
    .call (.readFilter ⟨"ann"⟩ ⟨"t"⟩ ⟨"c"⟩),
    .change (.store (.permission ⟨"ann"⟩ ⟨"c"⟩ (.withViewAll .readOnly))),
    .call (.readFilter ⟨"ann"⟩ ⟨"t"⟩ ⟨"c"⟩)]

/-- Two decisions are counted, one of them as an error.  Three of the four filters are, each as
another kind, and an error is for each of the two calls that met the failing groups. -/
theorem interrupted_check_is_error :
    totalOf "sharing_access_decisions_total" (({} : Deployment).events interruptedSession) = 2 ∧
      countOf (.accessDecision "error" .read) (({} : Deployment).events interruptedSession) = 1 ∧
      countOf (.accessDecision "no_grant" .read) (({} : Deployment).events interruptedSession) = 1 ∧
      totalOf "sharing_filters_built_total" (({} : Deployment).events interruptedSession) = 3 ∧
      countOf (.filterBuilt "unrestricted") (({} : Deployment).events interruptedSession) = 1 ∧
      countOf (.filterBuilt "match_nothing") (({} : Deployment).events interruptedSession) = 1 ∧
      countOf (.filterBuilt "restricted") (({} : Deployment).events interruptedSession) = 1 ∧
      countOf (.filterBuilt "") (({} : Deployment).events interruptedSession) = 0 ∧
      totalOf "sharing_errors_total" (({} : Deployment).events interruptedSession) = 2 := by
  obtain ⟨⟨hdecisions, hlabels, -⟩, ⟨hfilters, hnone, hnothing, hrestricted, hother⟩, herrors, -⟩ :=
    counters_account_for_calls {} interruptedSession
  exact ⟨hdecisions.trans (by decide), (hlabels _ _).trans (by decide),
    (hlabels _ _).trans (by decide), hfilters.trans (by decide), hnone.trans (by decide),
    hnothing.trans (by decide), hrestricted.trans (by decide), hother "" (by decide),
    herrors.trans (by decide)⟩

end Deployment

end RecordAccess
