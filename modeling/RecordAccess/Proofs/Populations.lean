import RecordAccess.Proofs.Compilation
import RecordAccess.Proofs.Resolution

/-!
# One population for each principal

A rule meets a principal from two sides.  Whose records it opens is asked by listing the users of
the principal or by looking for one owner; whom it reaches is asked of a subject that was resolved.
All of them mean one population (`Store.principals_mean_one_population`), but that a subject is
resolved with groups up to a depth only: a user further below a group is among its users, and is
not reached through it.
-/

namespace RecordAccess.Store

variable {s : Store} {depth : ℕ} {user : UserId} {subject : AccessSubject}

/-! ### Groups -/

/-- Who is inside a group is resolved to be in it, unless it is too far above. -/
theorem Resolves.not_mem_groups_iff (h : s.Resolves depth user subject) {g : GroupId} :
    g ∉ subject.groups ↔ ∀ n, s.graph.Above user n g → depth < n := by
  rw [h.mem_groups]
  push Not
  exact forall_congr' fun n => ⟨fun hn ha => not_le.1 fun hle => hn hle ha,
    fun hn hle ha => absurd (hn ha) (not_lt.2 hle)⟩

theorem Resolves.hasMember (h : s.Resolves depth user subject) {g : GroupId}
    (hg : g ∈ subject.groups) : s.HasMember g user := by
  obtain ⟨n, -, ha⟩ := h.mem_groups.1 hg
  exact hasMember_iff_above.2 ⟨n, ha⟩

/-! ### Roles -/

theorem Resolves.belongsTo_role_iff (hs : s.Consistent) (h : s.Resolves depth user subject)
    {tenant : TenantId} {role : RoleId} :
    subject.BelongsTo tenant (.role role) ↔ s.Contains tenant (.role role) user := by
  simp only [AccessSubject.BelongsTo, Contains, h.role, h.tenant]
  -- the role comes from the entry under the user's id, and there is one at most
  cases hfound : s.answer (.user user) with
  | none =>
    refine iff_of_false (by simp) ?_
    rintro ⟨x, hx, hid, -⟩
    have hsome := hs.find_user.2 ⟨hx, hid⟩
    rw [hfound] at hsome
    cases hsome
  | some x =>
    obtain ⟨hx, hid⟩ := hs.find_user.1 hfound
    constructor
    · exact fun hrole => ⟨x, hx, hid, hrole⟩
    · rintro ⟨y, hy, hyid, hrole⟩
      have hsome := hs.find_user.2 ⟨hy, hyid⟩
      rw [hfound] at hsome
      cases hsome
      exact hrole

/-! ### Principals -/

/-- What a subject that a user resolves to says of a principal, beside what its users say.  Depths
count for groups and queues only. -/
def Meets (s : Store) (depth : ℕ) (tenant : TenantId) (user : UserId) (subject : AccessSubject)
    (users : List UserId) (p : Principal) : Prop :=
  match p with
  | .user _ | .role _ => p.includes subject tenant = true ↔ user ∈ users
  | .group g | .queue g =>
    (p.includes subject tenant = true → user ∈ users) ∧
      (user ∈ users →
        (p.includes subject tenant = false ↔ ∀ n, s.graph.Above user n g → depth < n))

theorem Resolves.meets (hs : s.Consistent) (h : s.Resolves depth user subject)
    {tenant : TenantId} {users : List UserId} {p : Principal}
    (husers : ∀ u, u ∈ users ↔ s.Contains tenant p u) :
    s.Meets depth tenant user subject users p := by
  cases p with
  | user id =>
    show _ ↔ _
    rw [belongsTo_iff, husers, AccessSubject.BelongsTo, Contains, h.same_user]
  | role role =>
    show _ ↔ _
    rw [belongsTo_iff, husers, h.belongsTo_role_iff hs]
  | group g | queue g =>
    refine ⟨fun hin => (husers user).2 (h.hasMember (belongsTo_iff.1 hin)), fun _ => ?_⟩
    rw [← h.not_mem_groups_iff, ← Bool.not_eq_true, belongsTo_iff, AccessSubject.BelongsTo]

/-- **A principal means one population.**  Over a store whose providers answer, the users listed
for a principal are those an owner is looked for among, and for a user or a role those who resolve
to a subject of the principal.  The users of a group or a queue are its effective users; a subject
of it is one of them, and one of them is resolved to a subject of it unless every direct group of
theirs is too far below. -/
theorem principals_mean_one_population (history : List Mutation) (settings : EngineSettings)
    (hp : (ofHistory history).failing = []) (tenant : TenantId) (p : Principal) :
    let e := (ofHistory history).engine settings
    ∃ users, (e.principalUsers tenant p).outcome = .ok users ∧
      (∀ g, p = .group g ∨ p = .queue g → (e.effectiveUsers g).outcome = .ok users) ∧
      (∀ owner, ∃ b, (e.ownerIn owner tenant p).outcome = .ok b ∧
        (b = true ↔ owner ∈ users)) ∧
      ∀ user, ∃ subject, (e.resolveSubject user).outcome = .ok subject ∧
        (ofHistory history).Meets settings.maxGroupDepth tenant user subject users p := by
  intro e
  have hs := consistent_ofHistory history
  have hanswers : ∀ q : Provider, q ∉ (ofHistory history).failing := by simp [hp]
  obtain ⟨users, husers, hmem⟩ := exists_principalUsers
    (answeredFrom_engine (p := Query.IsCollective) settings fun c _ => hanswers c.provider)
    tenant p
  -- both other directions are compared with the users that are collected
  refine ⟨users, husers, ?_, fun owner => ?_, fun user => ?_⟩
  · rintro g (rfl | rfl) <;> exact husers
  · obtain ⟨b, hb, hiff⟩ := hs.exists_ownerIn_contains
      (answeredFrom_engine settings fun c _ => hanswers c.provider) owner tenant p
    exact ⟨b, hb, hiff.trans (hmem owner).symm⟩
  · obtain ⟨subject, hsubject, hresolves⟩ :=
      exists_resolveSubject settings (hanswers .users) (hanswers .groups) user
    exact ⟨subject, hsubject, hresolves.meets hs hmem⟩

/-- A user two nestings below a queue that is nested in itself. -/
def farBelow : List Mutation :=
  [.user ⟨⟨"ann"⟩, some ⟨"t"⟩, none, some ⟨"rep"⟩⟩, .membership (.ofUser ⟨"team"⟩ ⟨"ann"⟩),
    .membership (.nested ⟨"desk"⟩ ⟨"team"⟩), .membership (.nested ⟨"q"⟩ ⟨"desk"⟩),
    .membership (.nested ⟨"q"⟩ ⟨"q"⟩)]

/-- At depth one the user is among the users of the queue, but is not reached through it. -/
theorem far_user_not_reached :
    (ofHistory farBelow).failing = [] ∧
      ∃ users subject,
        (((ofHistory farBelow).engine ⟨1, .direct⟩).principalUsers ⟨"t"⟩ (.queue ⟨"q"⟩)).outcome =
          .ok users ∧
        ⟨"ann"⟩ ∈ users ∧
        (((ofHistory farBelow).engine ⟨1, .direct⟩).resolveSubject ⟨"ann"⟩).outcome =
          .ok subject ∧
        ∀ n, (ofHistory farBelow).graph.Above ⟨"ann"⟩ n ⟨"q"⟩ → 1 < n := by
  obtain ⟨users, husers, -, -, hmeets⟩ :=
    principals_mean_one_population farBelow ⟨1, .direct⟩ rfl ⟨"t"⟩ (.queue ⟨"q"⟩)
  obtain ⟨subject, hsubject, -, hfar⟩ := hmeets ⟨"ann"⟩
  have hlisted : (((ofHistory farBelow).engine ⟨1, .direct⟩).principalUsers ⟨"t"⟩
      (.queue ⟨"q"⟩)).outcome = .ok [⟨"ann"⟩] := rfl
  have hresolved : (((ofHistory farBelow).engine ⟨1, .direct⟩).resolveSubject ⟨"ann"⟩).outcome =
      .ok ⟨⟨"ann"⟩, some ⟨"rep"⟩, some ⟨"t"⟩, [⟨"desk"⟩, ⟨"team"⟩]⟩ := rfl
  cases husers.symm.trans hlisted
  cases hsubject.symm.trans hresolved
  exact ⟨rfl, _, _, husers, by simp, hsubject, (hfar (by simp)).1 rfl⟩

end RecordAccess.Store
