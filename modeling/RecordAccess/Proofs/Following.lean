import RecordAccess.Engine.Compile
import RecordAccess.Engine.Decide
import RecordAccess.Proofs.Closures
import RecordAccess.Proofs.Managers

/-!
# Runs over providers that fail

An engine whose providers answer every question as those of another, or fail, does the same as the
other engine up to the first question that fails, and then fails with that error.  `Run.Follows`
says so of two runs.  It holds of runs composed of runs it holds of (`Run.Follows.bind`), so it
holds of every operation, down to `Engine.Degrades.follows_evaluateFor` and
`Engine.Degrades.follows_filterFor`.
-/

namespace RecordAccess

/-! ### Following -/

/-- A run gives the value of another run, or fails as the first question of the other run does that
some providers do not answer. -/
inductive Run.Follows {α : Type} (q : Providers) (r' r : Run α) : Prop
  /-- Every question is answered. -/
  | whole (a : α) (outcome : r.outcome = .ok a) (outcome' : r'.outcome = .ok a)
    (calls' : r'.calls = r.calls) (answered : ∀ c ∈ r.calls, ∃ b, (q.ask c).outcome = .ok b)
  /-- All questions before one are answered, and that one fails. -/
  | cut (before : List Query) (c : Query) (after : List Query) (error : AccessError)
    (calls : r.calls = before ++ c :: after) (outcome' : r'.outcome = .error error)
    (calls' : r'.calls = before ++ [c]) (answered : ∀ d ∈ before, ∃ b, (q.ask d).outcome = .ok b)
    (failed : (q.ask c).outcome = .error error)

namespace Run.Follows

variable {α β : Type} {q : Providers}

theorem pure (a : α) : Follows q (Pure.pure a) (Pure.pure a) := .whole a rfl rfl rfl (by simp)

theorem count (c : Counter) : Follows q (Run.count c) (Run.count c) :=
  .whole () rfl rfl rfl (by simp)

theorem log (n : Notice) : Follows q (Run.log n) (Run.log n) := .whole () rfl rfl rfl (by simp)

/-- **Composed runs follow each other** when their parts do. -/
theorem bind {r' r : Run α} {f' f : α → Run β} (h : Follows q r' r)
    (hf : ∀ a, r.outcome = .ok a → Follows q (f' a) (f a)) :
    Follows q (r' >>= f') (r >>= f) := by
  cases h with
  | whole a hr hr' hcalls hanswered =>
    cases hf a hr with
    | whole b hb hb' hcallsb hansweredb =>
      refine .whole b ((outcome_bind_of_ok hr f).trans hb) ((outcome_bind_of_ok hr' f').trans hb')
        ?_ ?_
      · rw [calls_bind_of_ok hr, calls_bind_of_ok hr', hcalls, hcallsb]
      · intro c hc
        rw [calls_bind_of_ok hr, List.mem_append] at hc
        exact hc.elim (hanswered c) (hansweredb c)
    | cut before c after error hfcalls hfailed hfcalls' hansweredb hask =>
      -- the second part is cut, after all of the first
      refine .cut (r.calls ++ before) c after error ?_ ((outcome_bind_of_ok hr' f').trans hfailed)
        ?_ ?_ hask
      · rw [calls_bind_of_ok hr, hfcalls, List.append_assoc]
      · rw [calls_bind_of_ok hr', hcalls, hfcalls', List.append_assoc]
      · intro d hd
        exact (List.mem_append.1 hd).elim (hanswered d) (hansweredb d)
  | cut before c after error hcalls hfailed hcalls' hanswered hask =>
    -- the first part is cut, and the second one never begins
    obtain ⟨more, hmore⟩ := exists_calls_bind r f
    refine .cut before c (after ++ more) error ?_ (outcome_bind_of_error hfailed f') ?_ hanswered
      hask
    · rw [hmore, hcalls, List.append_assoc, List.cons_append]
    · rw [calls_bind_of_error hfailed, hcalls']

end Run.Follows

/-! ### Walks -/

namespace Walk

open Run

variable {α β : Type} [DecidableEq α] {q : Providers} {step' step : α → Run (List β × List α)}

theorem follows_visit (hstep : ∀ a, Follows q (step' a) (step a)) (as : List α) (m : Met α)
    (found : List β) : Follows q (visit step' as m found) (visit step as m found) := by
  induction as generalizing m found with
  | nil => exact .pure _
  | cons a as ih => exact (hstep a).bind fun r _ => ih _ _

theorem follows_rounds (hstep : ∀ a, Follows q (step' a) (step a)) (n : ℕ) (w : Walk α β) :
    Follows q (rounds step' n w) (rounds step n w) := by
  induction n generalizing w with
  | zero => exact .pure w
  | succ n ih =>
    unfold rounds
    split
    · exact .pure w
    · exact (follows_visit hstep w.frontier ⟨w.seen, []⟩ w.found).bind fun r _ => ih _

/-- Walks that both come to an end follow each other, whatever they have in rounds. -/
theorem follows_walk (hstep : ∀ a, Follows q (step' a) (step a)) {bound' bound : List α}
    (hbound' : ∀ b c, Leads step' b c → c ∈ bound') (hbound : ∀ b c, Leads step b c → c ∈ bound)
    (a : α) :
    Follows q (rounds step' (bound'.length + 1) (start [a]))
      (rounds step (bound.length + 1) (start [a])) := by
  have h := follows_rounds hstep (max (bound'.length + 1) (bound.length + 1)) (start [a])
  rwa [rounds_of_le (Nat.le_max_left _ _) fun w => frontier_eq_nil hbound',
    rounds_of_le (Nat.le_max_right _ _) fun w => frontier_eq_nil hbound] at h

end Walk

/-! ### Operations of engines -/

/-- An engine answers every question as another, or fails. -/
structure Engine.Degrades (e' e : Engine) : Prop where
  settings : e'.settings = e.settings
  answers : ∀ c, (e'.providers.ask c).outcome = (e.providers.ask c).outcome ∨
    ∃ error, (e'.providers.ask c).outcome = .error error

namespace Engine.Degrades

open Run

variable {e' e : Engine} (h : e'.Degrades e)

include h

theorem follows_ask (c : Query) : Follows e'.providers (e'.ask c) (e.ask c) := by
  have hcalls : ∀ p : Providers, (p.call c).calls = [c] := fun p => by
    rw [Providers.call, calls_bind_of_ok (outcome_emit _), p.calls_ask]
    rfl
  have hfailed : ∀ error, (e'.providers.ask c).outcome = .error error →
      Follows e'.providers (e'.ask c) (e.ask c) := fun error herror =>
    .cut [] c [] error (hcalls _) herror (hcalls _) (by simp) herror
  obtain hsame | ⟨error, herror⟩ := h.answers c
  · cases ha : (e'.providers.ask c).outcome with
    | error error => exact hfailed error ha
    | ok a =>
      refine .whole a (hsame.symm.trans ha) ha ((hcalls _).trans (hcalls _).symm) ?_
      intro d hd
      rw [Engine.ask, hcalls, List.mem_singleton] at hd
      subst hd
      exact ⟨a, ha⟩
  · exact hfailed error herror

theorem follows_defaultAccess (tenant : TenantId) (collection : CollectionId) :
    Follows e'.providers (e'.defaultAccess tenant collection)
      (e.defaultAccess tenant collection) := by
  refine (h.follows_ask _).bind fun found _ => ?_
  cases found <;> exact .pure _

/-! ### Groups and users -/

theorem follows_effectiveGroups (user : UserId) :
    Follows e'.providers (e'.effectiveGroups user) (e.effectiveGroups user) := by
  have hstep : ∀ g, Follows e'.providers (e'.parentStep g) (e.parentStep g) :=
    fun g => (h.follows_ask _).bind fun edges _ => .pure _
  unfold effectiveGroups
  rw [h.settings]
  refine .bind (.count _) fun _ _ => (h.follows_ask _).bind fun direct _ =>
    (Walk.follows_rounds hstep _ _).bind fun w _ => ?_
  split
  · exact .pure _
  · exact .bind (.log _) fun _ _ => .bind (.count _) fun _ _ => .pure _

theorem follows_effectiveUsers (group : GroupId) :
    Follows e'.providers (e'.effectiveUsers group) (e.effectiveUsers group) := by
  have hstep : ∀ g, Follows e'.providers (e'.memberStep g) (e.memberStep g) :=
    fun g => (h.follows_ask _).bind fun users _ => (h.follows_ask _).bind fun children _ => .pure _
  have hwalk := Walk.follows_walk hstep (fun _ _ => mem_nestedGroups_of_leads)
    (fun _ _ => mem_nestedGroups_of_leads) group
  exact .bind (.count _) fun _ _ => hwalk.bind fun w _ => .pure _

theorem follows_subordinates (user : UserId) :
    Follows e'.providers (e'.subordinates user) (e.subordinates user) := by
  have hstep : ∀ m, Follows e'.providers (e'.reportStep m) (e.reportStep m) := by
    intro m
    refine (h.follows_ask _).bind fun users _ => ?_
    rw [h.settings]
    exact .pure _
  have hwalk := Walk.follows_walk hstep (fun _ _ => mem_managedUsers_of_leads)
    (fun _ _ => mem_managedUsers_of_leads) user
  exact hwalk.bind fun w _ => .pure _

theorem follows_managesFrom (user : UserId) (n : ℕ) (current : UserId) (visited : List UserId) :
    Follows e'.providers (e'.managesFrom user n current visited)
      (e.managesFrom user n current visited) := by
  induction n generalizing current visited with
  | zero => exact .pure _
  | succ n ih =>
    refine (h.follows_ask _).bind fun found _ => ?_
    rw [h.settings]
    split
    · exact .pure _
    · split
      · exact .pure _
      · split
        · exact .pure _
        · exact ih _ _

theorem follows_isManagerOf (user owner : UserId) :
    Follows e'.providers (e'.isManagerOf user owner) (e.isManagerOf user owner) := by
  -- the chains may have steps in different number, but neither has too few
  have hlong := h.follows_managesFrom user
    (max (e'.providers.managers.length + 1) (e.providers.managers.length + 1)) owner [owner]
  rwa [managesFrom_of_le (Nat.le_max_left _ _) (climbed_start user owner) (by simp),
    managesFrom_of_le (Nat.le_max_right _ _) (climbed_start user owner) (by simp)] at hlong

/-! ### Decisions -/

theorem follows_resolveSubject (user : UserId) :
    Follows e'.providers (e'.resolveSubject user) (e.resolveSubject user) :=
  (h.follows_ask _).bind fun _ _ => (h.follows_effectiveGroups user).bind fun _ _ => .pure _

theorem follows_subjectOf (caller : Caller) :
    Follows e'.providers (e'.subjectOf caller) (e.subjectOf caller) := by
  cases caller with
  | user id => exact h.follows_resolveSubject id
  | subject s => exact .pure s

theorem follows_ownerIn (owner : UserId) (tenant : TenantId) (p : Principal) :
    Follows e'.providers (e'.ownerIn owner tenant p) (e.ownerIn owner tenant p) := by
  cases p with
  | user id => exact .pure _
  | group g => exact (h.follows_effectiveUsers g).bind fun users _ => .pure _
  | queue g => exact (h.follows_effectiveUsers g).bind fun users _ => .pure _
  | role r => exact (h.follows_ask _).bind fun found _ => .pure _

theorem follows_firstCovering (record : Record) (rules : List (SharingRule × RecordScope)) :
    Follows e'.providers (e'.firstCovering record rules) (e.firstCovering record rules) := by
  -- a record that no one owns asks nothing, any other asks what its rule says
  have hcovers : ∀ scope, Follows e'.providers (e'.covers record scope)
      (e.covers record scope) := by
    intro scope
    unfold covers
    split
    · exact .pure _
    · split
      · exact .pure _
      · exact h.follows_ownerIn _ _ _
  induction rules with
  | nil => exact .pure _
  | cons rule rules ih =>
    refine (hcovers rule.2).bind fun covered _ => ?_
    split
    · exact .pure _
    · exact ih

theorem follows_grantingRule (caller : Caller) (record : Record) (access : AccessType) :
    Follows e'.providers (e'.grantingRule caller record access)
      (e.grantingRule caller record access) := by
  refine (h.follows_ask _).bind fun rules _ => ?_
  split
  · exact .pure _
  · exact (h.follows_subjectOf caller).bind fun s _ =>
      (h.follows_firstCovering record _).bind fun rule _ => .pure _

theorem follows_grantingShare (caller : Caller) (record : Record) (access : AccessType) :
    Follows e'.providers (e'.grantingShare caller record access)
      (e.grantingShare caller record access) := by
  refine (h.follows_ask _).bind fun direct _ => ?_
  split
  · exact .pure _
  · refine (h.follows_subjectOf caller).bind fun s _ => ?_
    split
    · exact .pure _
    · refine (h.follows_ask _).bind fun shares _ => ?_
      split <;> exact .pure _

theorem follows_decideRecord (caller : Caller) (record : Record) (access : AccessType) :
    Follows e'.providers (e'.decideRecord caller record access)
      (e.decideRecord caller record access) := by
  have hmanages : Follows e'.providers (e'.managesOwner caller record)
      (e.managesOwner caller record) := by
    unfold managesOwner
    split
    · exact .pure _
    · exact h.follows_isManagerOf _ _
  -- up to the first failing question both look at the same sources
  unfold decideRecord
  split
  · exact .pure _
  · refine hmanages.bind fun manages _ => ?_
    split
    · exact .pure _
    · refine (h.follows_grantingRule caller record access).bind fun found _ => ?_
      obtain ⟨caller', rule⟩ := found
      cases rule with
      | some rule => exact .pure _
      | none =>
        refine (h.follows_grantingShare caller' record access).bind fun share _ => ?_
        cases share <;> exact .pure _

/-- Decisions are the same up to the first question that fails. -/
theorem follows_evaluateFor (caller : Caller) (record : Record) (access : AccessType) :
    Follows e'.providers (e'.evaluateFor caller record access)
      (e.evaluateFor caller record access) := by
  refine .bind ?_ fun decision _ => .bind (.count _) fun _ _ => .pure _
  refine (h.follows_ask _).bind fun permission _ => ?_
  split
  · exact .pure _
  · split
    · exact .pure _
    · refine (h.follows_defaultAccess _ _).bind fun baseline _ => ?_
      split
      · exact .pure _
      · exact h.follows_decideRecord caller record access

/-! ### Filters -/

theorem follows_ruleOwners (tenant : TenantId) (rules : List (SharingRule × RecordScope))
    (owners : List UserId) :
    Follows e'.providers (e'.ruleOwners tenant rules owners)
      (e.ruleOwners tenant rules owners) := by
  have hprincipal : ∀ p, Follows e'.providers (e'.principalUsers tenant p)
      (e.principalUsers tenant p) := by
    intro p
    cases p with
    | user id => exact .pure _
    | group g => exact h.follows_effectiveUsers g
    | queue g => exact h.follows_effectiveUsers g
    | role r => exact h.follows_ask _
  induction rules generalizing owners with
  | nil => exact .pure _
  | cons rule rules ih =>
    obtain ⟨rule, _ | principal⟩ := rule
    · exact .pure _
    · exact (hprincipal principal).bind fun users _ => ih _

theorem follows_sharedOwners (caller : Caller) (tenant : TenantId) (collection : CollectionId)
    (access : AccessType) :
    Follows e'.providers (e'.sharedOwners caller tenant collection access)
      (e.sharedOwners caller tenant collection access) := by
  refine (h.follows_ask _).bind fun rules _ => ?_
  split
  · exact .pure _
  · exact (h.follows_subjectOf caller).bind fun s _ =>
      (h.follows_ruleOwners tenant _ []).bind fun owners _ => .pure _

theorem follows_compileRecords (caller : Caller) (tenant : TenantId) (collection : CollectionId)
    (access : AccessType) :
    Follows e'.providers (e'.compileRecords caller tenant collection access)
      (e.compileRecords caller tenant collection access) := by
  refine (h.follows_subordinates _).bind fun reports _ =>
    (h.follows_sharedOwners caller tenant collection access).bind fun shared _ => ?_
  obtain ⟨caller', owners⟩ := shared
  cases owners with
  | none => exact .pure _
  | some owners =>
    have hrecords : Follows e'.providers (e'.sharedRecords caller' tenant collection access)
        (e.sharedRecords caller' tenant collection access) :=
      (h.follows_subjectOf caller').bind fun s _ => (h.follows_ask _).bind fun shares _ => .pure _
    exact hrecords.bind fun records _ => .pure _

/-- Filters are the same up to the first question that fails. -/
theorem follows_filterFor (caller : Caller) (tenant : TenantId) (collection : CollectionId)
    (access : AccessType) :
    Follows e'.providers (e'.filterFor caller tenant collection access)
      (e.filterFor caller tenant collection access) := by
  refine .bind ?_ fun f _ => .bind (.count _) fun _ _ => .pure _
  refine (h.follows_ask _).bind fun permission _ => ?_
  split
  · exact .pure _
  · split
    · exact .pure _
    · refine (h.follows_defaultAccess _ _).bind fun baseline _ => ?_
      split
      · exact .pure _
      · exact h.follows_compileRecords caller tenant collection access

end Engine.Degrades

end RecordAccess
