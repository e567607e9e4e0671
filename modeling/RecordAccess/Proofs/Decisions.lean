import RecordAccess.Engine.Decide
import RecordAccess.Proofs.Runs

/-!
# Decisions out of their sources

What the sources of access lead to in their order, given what each of them found.
-/

namespace RecordAccess

/-- The decision by the sources that look at one record, in their order: ownership, managers, rules,
shares. -/
def Decision.first (owns manages : Bool) (rule : Option SharingRule)
    (share : Option GrantSource) : Decision :=
  if owns then .granted .ownership
  else if manages then .granted .managerChain
  else match rule with
    | some rule => .granted (.sharingRule rule.id)
    | none =>
      match share with
      | some source => .granted source
      | none => .denied .noGrant

theorem Decision.isGranted_first (owns manages : Bool) (rule : Option SharingRule)
    (share : Option GrantSource) :
    (first owns manages rule share).isGranted =
      (owns || manages || rule.isSome || share.isSome) := by
  cases owns <;> cases manages <;> cases rule <;> cases share <;> rfl

namespace Engine

variable {e : Engine} {caller : Caller} {record : Record} {access : AccessType}

theorem user_of_subjectOf {subject : AccessSubject}
    (h : (e.subjectOf caller).outcome = .ok subject) : subject.user = caller.userId := by
  cases caller with
  | subject s => cases h; rfl
  | user id =>
    obtain ⟨found, -, hrest⟩ := Run.outcome_bind_eq_ok.1 h
    obtain ⟨groups, -, heq⟩ := Run.outcome_bind_eq_ok.1 hrest
    cases heq
    rfl

/-- Where there are rules, the caller is resolved and the first rule is found that covers the
record. -/
theorem outcome_grantingRule {rules : List SharingRule} {subject : AccessSubject}
    {found : Option SharingRule}
    (hrules : (e.ask (.activeRules record.tenant record.collection)).outcome = .ok rules)
    (hne : ¬ rules.isEmpty = true) (hsubject : (e.subjectOf caller).outcome = .ok subject)
    (hfound : (e.firstCovering record (applicable rules subject access)).outcome = .ok found) :
    (e.grantingRule caller record access).outcome = .ok (.subject subject, found) := by
  rw [grantingRule, Run.outcome_bind_of_ok hrules, if_neg hne, Run.outcome_bind_of_ok hsubject,
    Run.outcome_bind_of_ok hfound]
  rfl

/-- A share with the user is found before one with a group. -/
theorem outcome_grantingShare {subject : AccessSubject} {direct group : List RecordShare}
    (hsubject : (e.subjectOf caller).outcome = .ok subject)
    (hdirect : (e.ask (.directShares record.collection record.id caller.userId)).outcome =
      .ok direct)
    (hgroup : (e.ask (.groupShares record.collection record.id
      (sortedGroups subject.groups))).outcome = .ok group)
    (hnone : subject.groups = [] → group = []) :
    (e.grantingShare caller record access).outcome =
      .ok (((direct.find? fun share => share.gives record.tenant access).map
          fun share => .recordShare share.id).or
        ((group.find? fun share => share.gives record.tenant access).map
          fun share => .groupShare share.id)) := by
  rw [grantingShare, Run.outcome_bind_of_ok hdirect]
  cases direct.find? fun share => share.gives record.tenant access with
  | some share => rfl
  | none =>
    simp only [Run.outcome_bind_of_ok hsubject]
    by_cases hempty : subject.groups = []
    · -- nothing is asked for, and nothing would be found
      rw [hnone hempty, if_pos (List.isEmpty_iff.2 hempty)]
      rfl
    · rw [if_neg (mt List.isEmpty_iff.1 hempty), Run.outcome_bind_of_ok hgroup]
      cases group.find? fun share => share.gives record.tenant access <;> rfl

/-- The shares are looked at only where no rule grants. -/
theorem outcome_decideRecord {manages : Bool} {caller' : Caller} {rule : Option SharingRule}
    {share : Option GrantSource}
    (hmanages : (e.managesOwner caller record).outcome = .ok manages)
    (hrule : (e.grantingRule caller record access).outcome = .ok (caller', rule))
    (hshare : rule = none → (e.grantingShare caller' record access).outcome = .ok share) :
    (e.decideRecord caller record access).outcome =
      .ok (.first (record.owner = some caller.userId) manages rule share) := by
  unfold decideRecord
  -- a source is looked at only where none before it grants
  by_cases howns : record.owner = some caller.userId
  · rw [if_pos howns]
    simp [howns, Decision.first]
  · rw [if_neg howns, Run.outcome_bind_of_ok hmanages]
    cases manages with
    | true => simp [howns, Decision.first]
    | false =>
      rw [if_neg Bool.false_ne_true, Run.outcome_bind_of_ok hrule]
      cases rule with
      | some rule => simp [howns, Decision.first]
      | none =>
        rw [Run.outcome_bind_of_ok (hshare rfl)]
        cases share <;> simp [howns, Decision.first]

theorem outcome_evaluateFor :
    (e.evaluateFor caller record access).outcome = (e.decide caller record access).outcome :=
  Run.outcome_bind_self fun _ => rfl

end Engine

end RecordAccess
