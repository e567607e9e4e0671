import RecordAccess.Proofs.Following

/-!
# Failures of providers

A provider that fails can turn an answer into an error and nothing else: every request gives the
value that it gives over providers that answer, or the error of the first question that fails
(`Engine.Degrades.follows_answer`).  An error is read as a denied access, so failures never grant
one (`Engine.exists_granted_of_canAccessOrDeny`).  Providers are functions of the question: a
question that fails is one that fails whenever it is asked.
-/

namespace RecordAccess

/-! ### Requests -/

/-- What an engine is asked to do. -/
inductive Request
  | evaluate (user : UserId) (record : Record) (access : AccessType)
  | evaluateAs (subject : AccessSubject) (record : Record) (access : AccessType)
  | filter (user : UserId) (tenant : TenantId) (collection : CollectionId) (access : AccessType)
  | filterAs (subject : AccessSubject) (tenant : TenantId) (collection : CollectionId)
    (access : AccessType)
  | resolveSubject (user : UserId)
  | effectiveGroups (user : UserId)
  | effectiveUsers (group : GroupId)

/-- What a request is answered with. -/
@[reducible]
def Request.Answer : Request → Type
  | .evaluate .. => Decision
  | .evaluateAs .. => Decision
  | .filter .. => Option SharingPredicate
  | .filterAs .. => Option SharingPredicate
  | .resolveSubject .. => AccessSubject
  | .effectiveGroups .. => List GroupId
  | .effectiveUsers .. => List UserId

/-- Answers a request. -/
def Engine.answer (e : Engine) : (r : Request) → Run r.Answer
  | .evaluate user record access => e.evaluate user record access
  | .evaluateAs subject record access => e.evaluateAs subject record access
  | .filter user tenant collection access => e.filter user tenant collection access
  | .filterAs subject tenant collection access => e.filterAs subject tenant collection access
  | .resolveSubject user => e.resolveSubject user
  | .effectiveGroups user => e.effectiveGroups user
  | .effectiveUsers group => e.effectiveUsers group

/-- An error is that of the first of some questions that fails. -/
def Providers.FirstFailure (p : Providers) (calls : List Query) (error : AccessError) : Prop :=
  ∃ before c after, calls = before ++ c :: after ∧
    (∀ d ∈ before, ∃ a, (p.ask d).outcome = .ok a) ∧ (p.ask c).outcome = .error error

namespace Run.Follows

variable {α : Type} {q : Providers} {r' r : Run α}

/-- A run that follows one gives its value or fails at its first question that fails. -/
theorem ok_or_firstFailure (h : Follows q r' r) {a : α} (ha : r.outcome = .ok a) :
    r'.outcome = .ok a ∨ ∃ error, r'.outcome = .error error ∧ q.FirstFailure r.calls error := by
  cases h with
  | whole b hr hr' =>
    rw [hr] at ha
    cases ha
    exact .inl hr'
  | cut before c after error hcalls hr' _ hanswered hfailed =>
    exact .inr ⟨error, hr', before, c, after, hcalls, hanswered, hfailed⟩

theorem exists_ok (h : Follows q r' r) (hq : ∀ c ∈ r.calls, ∃ b, (q.ask c).outcome = .ok b) :
    ∃ a, r.outcome = .ok a ∧ r'.outcome = .ok a := by
  cases h with
  | whole a hr hr' => exact ⟨a, hr, hr'⟩
  | cut before c after error hcalls _ _ _ hfailed =>
    obtain ⟨b, hb⟩ := hq c (by simp [hcalls])
    rw [hfailed] at hb
    cases hb

theorem exists_failed (h : Follows q r' r) {error : AccessError} (he : r'.outcome = .error error) :
    ∃ c, (q.ask c).outcome = .error error := by
  cases h with
  | whole a _ hr' =>
    rw [hr'] at he
    cases he
  | cut before c after error' _ hr' _ _ hfailed =>
    rw [hr'] at he
    cases he
    exact ⟨c, hfailed⟩

end Run.Follows

namespace Engine

theorem Degrades.follows_answer {e' e : Engine} (h : e'.Degrades e) (request : Request) :
    Run.Follows e'.providers (e'.answer request) (e.answer request) := by
  cases request with
  | evaluate user record access => exact h.follows_evaluateFor (.user user) record access
  | evaluateAs subject record access => exact h.follows_evaluateFor (.subject subject) record access
  | filter user tenant collection access =>
    exact h.follows_filterFor (.user user) tenant collection access
  | filterAs subject tenant collection access =>
    exact h.follows_filterFor (.subject subject) tenant collection access
  | resolveSubject user => exact h.follows_resolveSubject user
  | effectiveGroups user => exact h.follows_effectiveGroups user
  | effectiveUsers group => exact h.follows_effectiveUsers group

theorem degrades_self (e : Engine) : e.Degrades e := ⟨rfl, fun _ => .inl rfl⟩

theorem exists_failed_ask {e : Engine} {request : Request} {error : AccessError}
    (h : (e.answer request).outcome = .error error) :
    ∃ c, (e.providers.ask c).outcome = .error error :=
  (e.degrades_self.follows_answer request).exists_failed h

/-- Access is granted in spite of errors only where the decision grants it. -/
theorem exists_granted_of_canAccessOrDeny {e : Engine} {user : UserId} {record : Record}
    {access : AccessType} (h : (e.canAccessOrDeny user record access).outcome = .ok true) :
    ∃ d, (e.evaluate user record access).outcome = .ok d ∧ d.isGranted = true := by
  unfold canAccessOrDeny at h
  dsimp only at h
  split at h
  · obtain ⟨d, hd, hgranted⟩ := Run.outcome_bind_eq_ok.1 h
    exact ⟨d, hd, Except.ok.inj hgranted⟩
  · cases h

end Engine

namespace Store

/-- Every question that a store does not answer fails for a provider that was made to fail. -/
theorem mem_failing_of_ask {s : Store} {c : Query} {error : AccessError}
    (h : (s.ask c).outcome = .error error) :
    c.provider ∈ s.failing ∧ error = .providerUnavailable c.provider.name "injected failure" := by
  unfold ask at h
  split at h
  · rename_i hfailing
    cases h
    exact ⟨by simpa using hfailing, rfl⟩
  · cases h

/-- The store with all of its providers answering. -/
def restored (s : Store) : Store := { s with failing := [] }

theorem answer_restored (s : Store) (c : Query) : s.restored.answer c = s.answer c := by
  cases c <;> rfl

theorem exists_ok_ask_restored (s : Store) (c : Query) :
    ∃ a, (s.restored.ask c).outcome = .ok a :=
  ⟨_, ask_eq_ok.2 ⟨List.not_mem_nil, rfl⟩⟩

theorem exists_ok_answer {s : Store} (hs : s.failing = []) (settings : EngineSettings)
    (request : Request) : ∃ v, ((s.engine settings).answer request).outcome = .ok v := by
  cases h : ((s.engine settings).answer request).outcome with
  | ok v => exact ⟨v, rfl⟩
  | error error =>
    obtain ⟨c, hc⟩ := Engine.exists_failed_ask h
    obtain ⟨hfailing, -⟩ := mem_failing_of_ask hc
    rw [hs] at hfailing
    cases hfailing

/-- A store answers as it does with all of its providers answering, or fails. -/
theorem ask_eq_restored_or_error (s : Store) (c : Query) :
    (s.ask c).outcome = (s.restored.ask c).outcome ∨
      ∃ error, (s.ask c).outcome = .error error := by
  cases h : (s.ask c).outcome with
  | error error => exact .inr ⟨error, rfl⟩
  | ok a =>
    obtain ⟨-, rfl⟩ := ask_eq_ok.1 h
    exact .inl (ask_eq_ok.2 ⟨List.not_mem_nil, s.answer_restored c⟩).symm

end Store

namespace Engine

/-- **Failures only cut answers short.**  Over providers that answer as others which never fail, or
fail, every request gives the same value, or the error of the first question that fails; it gives
the value if no question fails.  Access is granted only if the decision without failures grants it.
Over a store, the error names a provider that was made to fail. -/
theorem failures_cut_short (p q : Providers) (settings : EngineSettings)
    (hp : ∀ c, ∃ a, (p.ask c).outcome = .ok a)
    (hq : ∀ c, (q.ask c).outcome = (p.ask c).outcome ∨ ∃ error, (q.ask c).outcome = .error error) :
    (∀ request, ∃ v, ((Engine.mk p settings).answer request).outcome = .ok v ∧
      (((Engine.mk q settings).answer request).outcome = .ok v ∨
        ∃ error, ((Engine.mk q settings).answer request).outcome = .error error ∧
          q.FirstFailure ((Engine.mk p settings).answer request).calls error) ∧
      ((∀ c ∈ ((Engine.mk p settings).answer request).calls, ∃ a, (q.ask c).outcome = .ok a) →
        ((Engine.mk q settings).answer request).outcome = .ok v)) ∧
    (∀ user record access,
      ((Engine.mk q settings).canAccessOrDeny user record access).outcome = .ok true →
        ∃ d, ((Engine.mk p settings).evaluate user record access).outcome = .ok d ∧
          d.isGranted = true) ∧
    ∀ history request error,
      (((Store.ofHistory history).engine settings).answer request).outcome = .error error →
        ∃ provider ∈ (Store.ofHistory history).failing, error.code = .providerUnavailable ∧
          error.context = [("port", .string provider.name)] := by
  have hdegrades : (Engine.mk q settings).Degrades (Engine.mk p settings) := ⟨rfl, hq⟩
  refine ⟨fun request => ?_, fun user record access htrue => ?_, fun history request error h => ?_⟩
  · have hfollows := hdegrades.follows_answer request
    -- an engine follows itself as well, so it fails only where a question does
    obtain ⟨v, hv, -⟩ := ((degrades_self ⟨p, settings⟩).follows_answer request).exists_ok
      fun c _ => hp c
    refine ⟨v, hv, hfollows.ok_or_firstFailure hv, fun hanswered => ?_⟩
    obtain ⟨a, ha, ha'⟩ := hfollows.exists_ok hanswered
    rw [hv] at ha
    cases ha
    exact ha'
  · obtain ⟨d, hd, hgranted⟩ := exists_granted_of_canAccessOrDeny htrue
    have hfollows := hdegrades.follows_answer (.evaluate user record access)
    cases hfollows with
    | whole a ha ha' =>
      have heq : a = d := Except.ok.inj (ha'.symm.trans hd)
      exact ⟨d, heq ▸ ha, hgranted⟩
    | cut before c after error _ hfailed =>
      have : Except.ok d = Except.error error := hd.symm.trans hfailed
      cases this
  · obtain ⟨c, hc⟩ := exists_failed_ask h
    obtain ⟨hfailing, rfl⟩ := Store.mem_failing_of_ask hc
    exact ⟨c.provider, hfailing, rfl, rfl⟩

/-- A user in a group, and groups that do not answer. -/
def silentGroups : List Mutation := [.membership (.ofUser ⟨"g"⟩ ⟨"rep"⟩), .failProvider .groups]

/-- A subject is asked for as a user first, so it is the first question for groups that fails. -/
theorem groups_fail_after_user :
    ∃ error, (((Store.ofHistory silentGroups).engine ⟨3, .direct⟩).answer
        (.resolveSubject ⟨"rep"⟩)).outcome = .error error ∧
      (Store.ofHistory silentGroups).providers.FirstFailure
        [.user ⟨"rep"⟩, .directGroups ⟨"rep"⟩, .parentGroups ⟨"g"⟩] error := by
  have h := failures_cut_short (Store.ofHistory silentGroups).restored.providers
    (Store.ofHistory silentGroups).providers ⟨3, .direct⟩
    (Store.exists_ok_ask_restored _) (Store.ask_eq_restored_or_error _)
  obtain ⟨v, -, hok | herror, -⟩ := h.1 (.resolveSubject ⟨"rep"⟩)
  · cases hok
  · exact herror

end Engine

end RecordAccess
