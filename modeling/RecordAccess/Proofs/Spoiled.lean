import RecordAccess.Proofs.Compilation
import RecordAccess.Proofs.Isolation

/-!
# Spoiled tables

Choices are stored as free text, so a column may come to hold a text that names none of them.  A row
that is spoiled in this way stands for what it stood for before, or for nothing; and a spoiled
default is the most restrictive one.  Spoiled tables therefore hold no more than they did
(`Database.SpoiledFrom.extends_contents`), and nobody gains access through them
(`Database.spoiled_tables_widen_nothing`).

Nothing is assumed of the keys of the tables.  Where an id has several users, a decision looks at
the first of them and a filter at all.
-/

namespace RecordAccess

/-! ### Columns -/

/-- A column holds what it held before, or a text that is the name of nothing. -/
def Spoiled {α : Type} (name : α → String) (column' column : Option String) : Prop :=
  column' = column ∨ ∃ text, column' = some text ∧ ∀ a, text ≠ name a

namespace Spoiled

variable {α : Type} {name : α → String} {column' column : Option String}

theorem eq_of_name (h : Spoiled name column' column) {a : α} (ha : column' = some (name a)) :
    column' = column := by
  obtain rfl | ⟨text, htext, hno⟩ := h
  · rfl
  · exact absurd (Option.some.inj (htext.symm.trans ha)) (hno a)

theorem isSome (h : Spoiled name column' column) (hcolumn : column.isSome = true) :
    column'.isSome = true := by
  obtain rfl | ⟨text, rfl, -⟩ := h
  · exact hcolumn
  · rfl

end Spoiled

/-! ### Rows -/

theorem DefaultAccess.ofColumn_eq_private {text : String} (h : ∀ a : DefaultAccess, text ≠ a.name) :
    ofColumn text = .privateAccess := by
  have hreadWrite : text ≠ "PUBLIC_READ_WRITE" := h .publicReadWrite
  have hread : text ≠ "PUBLIC_READ" := h .publicRead
  rw [ofColumn, if_neg hreadWrite, if_neg hread]

/-- A default with another text for the access. -/
structure DefaultRow.SpoiledFrom (r' r : DefaultRow) : Prop where
  tenant : r'.tenant = r.tenant
  collection : r'.collection = r.collection
  internalAccess : Spoiled DefaultAccess.name r'.internalAccess r.internalAccess

/-- A rule with other texts for its kind, its two principals and its level.  The source may also be
emptied. -/
structure RuleRow.SpoiledFrom (r' r : RuleRow) : Prop where
  id : r'.id = r.id
  tenant : r'.tenant = r.tenant
  collection : r'.collection = r.collection
  name : r'.name = r.name
  ruleType : Spoiled RuleKind.name r'.ruleType r.ruleType
  sharedFromType : r'.sharedFromType = none ∨
    Spoiled Principal.kind r'.sharedFromType r.sharedFromType
  sharedFromId : r'.sharedFromId = none ∨ r'.sharedFromId = r.sharedFromId
  criteria : r'.criteria = r.criteria
  sharedToType : Spoiled Principal.kind r'.sharedToType r.sharedToType
  sharedToId : r'.sharedToId = r.sharedToId
  accessLevel : Spoiled AccessLevel.name r'.accessLevel r.accessLevel
  active : r'.active = r.active
  createdAt : r'.createdAt = r.createdAt

/-- A share with other texts for the kind of its subject and its level. -/
structure ShareRow.SpoiledFrom (r' r : ShareRow) : Prop where
  id : r'.id = r.id
  tenant : r'.tenant = r.tenant
  collection : r'.collection = r.collection
  record : r'.record = r.record
  sharedWithType : Spoiled ShareSubject.kind r'.sharedWithType r.sharedWithType
  sharedWithId : r'.sharedWithId = r.sharedWithId
  accessLevel : Spoiled AccessLevel.name r'.accessLevel r.accessLevel
  reason : r'.reason = r.reason
  createdAt : r'.createdAt = r.createdAt

/-- A membership with another text for the type of its member. -/
structure MembershipRow.SpoiledFrom (r' r : MembershipRow) : Prop where
  group : r'.group = r.group
  memberType : Spoiled MemberType.name r'.memberType r.memberType
  member : r'.member = r.member

theorem DefaultRow.SpoiledFrom.isComplete {r' r : DefaultRow} (h : r'.SpoiledFrom r)
    (hr : r.isComplete = true) : r'.isComplete = true := by
  simp only [DefaultRow.isComplete, Bool.and_eq_true] at hr ⊢
  rw [h.tenant, h.collection]
  exact ⟨hr.1, h.internalAccess.isSome hr.2⟩

theorem RuleRow.SpoiledFrom.isComplete {r' r : RuleRow} (h : r'.SpoiledFrom r)
    (hr : r.isComplete = true) : r'.isComplete = true := by
  simp only [RuleRow.isComplete, Bool.and_eq_true, and_assoc] at hr ⊢
  obtain ⟨hid, ht, hc, htype, hto, htoId, hlevel, ha, htime⟩ := hr
  rw [h.id, h.tenant, h.collection, h.sharedToId, h.active, h.createdAt]
  exact ⟨hid, ht, hc, h.ruleType.isSome htype, h.sharedToType.isSome hto, htoId,
    h.accessLevel.isSome hlevel, ha, htime⟩

theorem ShareRow.SpoiledFrom.isComplete {r' r : ShareRow} (h : r'.SpoiledFrom r)
    (hr : r.isComplete = true) : r'.isComplete = true := by
  simp only [ShareRow.isComplete, Bool.and_eq_true, and_assoc] at hr ⊢
  obtain ⟨hid, ht, hc, hrec, hwith, hwithId, hlevel, htime⟩ := hr
  rw [h.id, h.tenant, h.collection, h.record, h.sharedWithId, h.createdAt]
  exact ⟨hid, ht, hc, hrec, h.sharedWithType.isSome hwith, hwithId, h.accessLevel.isSome hlevel,
    htime⟩

theorem MembershipRow.SpoiledFrom.isComplete {r' r : MembershipRow} (h : r'.SpoiledFrom r)
    (hr : r.isComplete = true) : r'.isComplete = true := by
  rw [MembershipRow.isComplete, h.group, h.member]
  exact hr

theorem DefaultRow.SpoiledFrom.grants {r' r : DefaultRow} (h : r'.SpoiledFrom r)
    {x' x : OrgWideDefault} (hx' : r'.model? = some x') (hx : r.model? = some x)
    {access : AccessType} (hgrants : x'.access.grants access = true) :
    x.access.grants access = true := by
  obtain ⟨-, -, text', htext', haccess'⟩ := DefaultRow.columns_of_model? hx'
  obtain ⟨-, -, text, htext, haccess⟩ := DefaultRow.columns_of_model? hx
  rw [haccess'] at hgrants
  obtain hsame | ⟨_, hspoiled, hno⟩ := h.internalAccess
  · have hsame : text' = text := Option.some.inj (htext'.symm.trans (hsame.trans htext))
    rw [haccess, ← hsame, hgrants]
  · cases htext'.symm.trans hspoiled
    rw [DefaultAccess.ofColumn_eq_private hno] at hgrants
    cases hgrants

/-- A spoiled rule is the rule that it was, or none. -/
theorem RuleRow.SpoiledFrom.model? {r' r : RuleRow} (h : r'.SpoiledFrom r) {rule : SharingRule}
    (hrule : r'.model? = some rule) : r.model? = some rule := by
  have hholds := RuleRow.model?_eq_some.1 hrule
  -- a source that can still be read was not touched
  have hsource : ∀ p, rule.kind = .ownerBased p →
      r.sharedFromType = some p.kind ∧ r.sharedFromId = some p.idText := by
    intro p hp
    obtain ⟨hkind, hid⟩ := hholds.source p hp
    have hkind' := (h.sharedFromType.resolve_left (by simp [hkind])).eq_of_name hkind
    have hid' := h.sharedFromId.resolve_left (by simp [hid])
    exact ⟨hkind' ▸ hkind, hid' ▸ hid⟩
  exact RuleRow.model?_eq_some.2
    { id := h.id ▸ hholds.id
      tenant := h.tenant ▸ hholds.tenant
      collection := h.collection ▸ hholds.collection
      name := h.name ▸ hholds.name
      kind := h.ruleType.eq_of_name hholds.kind ▸ hholds.kind
      source := hsource
      criteria := h.criteria ▸ hholds.criteria
      sharedToType := h.sharedToType.eq_of_name hholds.sharedToType ▸ hholds.sharedToType
      sharedToId := h.sharedToId ▸ hholds.sharedToId
      level := h.accessLevel.eq_of_name hholds.level ▸ hholds.level
      active := h.active ▸ hholds.active
      createdAt := h.createdAt ▸ hholds.createdAt }

theorem ShareRow.SpoiledFrom.model? {r' r : ShareRow} (h : r'.SpoiledFrom r) {share : RecordShare}
    (hshare : r'.model? = some share) : r.model? = some share := by
  obtain ⟨-, -, -, hkind, -, hlevel⟩ := ShareRow.columns_of_model? hshare
  have heq : r' = r := by
    rw [ShareRow.mk.injEq]
    exact ⟨h.id, h.tenant, h.collection, h.record, h.sharedWithType.eq_of_name hkind,
      h.sharedWithId, h.accessLevel.eq_of_name hlevel, h.reason, h.createdAt⟩
  exact heq ▸ hshare

theorem MembershipRow.SpoiledFrom.model? {r' r : MembershipRow} (h : r'.SpoiledFrom r)
    {m : Membership} (hm : r'.model? = some m) : r.model? = some m := by
  obtain ⟨-, htype, -⟩ := MembershipRow.columns_of_model? hm
  have heq : r' = r := by
    rw [MembershipRow.mk.injEq]
    exact ⟨h.group, h.memberType.eq_of_name htype, h.member⟩
  exact heq ▸ hm

/-! ### Tables -/

theorem exists_mem_of_forall₂ {α β : Type} {R : α → β → Prop} {l' : List α} {l : List β}
    (h : List.Forall₂ R l' l) {a' : α} (ha' : a' ∈ l') : ∃ a ∈ l, R a' a := by
  induction h with
  | nil => cases ha'
  | cons hR _ ih =>
    obtain rfl | ha' := List.mem_cons.1 ha'
    · exact ⟨_, List.mem_cons_self, hR⟩
    · obtain ⟨a, ha, hR⟩ := ih ha'
      exact ⟨a, List.mem_cons_of_mem _ ha, hR⟩

theorem mem_filterMap_of_forall₂ {ρ α : Type} {R : ρ → ρ → Prop} {f : ρ → Option α}
    (hf : ∀ r' r, R r' r → ∀ a, f r' = some a → f r = some a) {rows' rows : List ρ}
    (h : List.Forall₂ R rows' rows) : ∀ a ∈ rows'.filterMap f, a ∈ rows.filterMap f := by
  intro a ha
  obtain ⟨r', hr', ha'⟩ := List.mem_filterMap.1 ha
  obtain ⟨r, hr, hR⟩ := exists_mem_of_forall₂ h hr'
  exact List.mem_filterMap.2 ⟨r, hr, hf r' r hR a ha'⟩

theorem rel_find?_of_forall₂ {α β : Type} {R : α → β → Prop} {p : α → Bool} {q : β → Bool}
    (hpq : ∀ a' a, R a' a → p a' = q a) {l' : List α} {l : List β} (h : List.Forall₂ R l' l) :
    Option.Rel R (l'.find? p) (l.find? q) := by
  induction h with
  | nil => exact .none
  | @cons a' a _ _ hR _ ih =>
    rw [List.find?_cons, List.find?_cons, ← hpq a' a hR]
    cases p a' with
    | true => exact .some hR
    | false => exact ih

/-- Tables whose rows are spoiled.  Users have no choices, so theirs is left alone. -/
structure Database.SpoiledFrom (d' d : Database) : Prop where
  orgWideDefaults : List.Forall₂ DefaultRow.SpoiledFrom d'.orgWideDefaults d.orgWideDefaults
  rules : List.Forall₂ RuleRow.SpoiledFrom d'.rules d.rules
  shares : List.Forall₂ ShareRow.SpoiledFrom d'.shares d.shares
  users : d'.users = d.users
  memberships : List.Forall₂ MembershipRow.SpoiledFrom d'.memberships d.memberships

theorem Store.defaultOf_eq (s : Store) (tenant : TenantId) (collection : CollectionId) :
    s.defaultOf tenant collection =
      ((s.answer (.orgWideDefault tenant collection)).map (·.access)).getD .publicReadWrite := by
  unfold defaultOf
  rw [answer]
  cases s.orgWideDefaults.find? _ <;> rfl

theorem Database.mem_contents_rules {d : Database} {rule : SharingRule} :
    rule ∈ d.contents.rules ↔ rule ∈ d.rules.filterMap RuleRow.model? :=
  ((List.mergeSort_perm d.rules createdNoLater).filterMap RuleRow.model?).mem_iff

namespace Database.SpoiledFrom

variable {d' d : Database} (h : d'.SpoiledFrom d)

include h

theorem isComplete (hd : d.isComplete = true) : d'.isComplete = true := by
  obtain ⟨hdefaults, hrules, hshares, husers, hmemberships⟩ := isComplete_of_mem hd
  simp only [Database.isComplete, Bool.and_eq_true, List.all_eq_true, and_assoc]
  refine ⟨fun r' hr' => ?_, fun r' hr' => ?_, fun r' hr' => ?_, h.users ▸ husers,
    fun r' hr' => ?_⟩
  · obtain ⟨r, hr, hspoiled⟩ := exists_mem_of_forall₂ h.orgWideDefaults hr'
    exact hspoiled.isComplete (hdefaults r hr)
  · obtain ⟨r, hr, hspoiled⟩ := exists_mem_of_forall₂ h.rules hr'
    exact hspoiled.isComplete (hrules r hr)
  · obtain ⟨r, hr, hspoiled⟩ := exists_mem_of_forall₂ h.shares hr'
    exact hspoiled.isComplete (hshares r hr)
  · obtain ⟨r, hr, hspoiled⟩ := exists_mem_of_forall₂ h.memberships hr'
    exact hspoiled.isComplete (hmemberships r hr)

theorem grants_defaultOf (hd : d.isComplete = true) {tenant : TenantId}
    {collection : CollectionId} {access : AccessType}
    (hgrants : (d'.contents.defaultOf tenant collection).grants access = true) :
    (d.contents.defaultOf tenant collection).grants access = true := by
  have hd' := h.isComplete hd
  obtain ⟨hcomplete, -⟩ := isComplete_of_mem hd
  obtain ⟨hcomplete', -⟩ := isComplete_of_mem hd'
  let p : DefaultRow → Bool := fun r =>
    r.tenant = some tenant.text && r.collection = some collection.text
  have hanswer : d.contents.answer (.orgWideDefault tenant collection) =
      (d.orgWideDefaults.find? p).bind DefaultRow.model? := contents_orgWideDefault hd _ _
  have hanswer' : d'.contents.answer (.orgWideDefault tenant collection) =
      (d'.orgWideDefaults.find? p).bind DefaultRow.model? := contents_orgWideDefault hd' _ _
  -- keys are never spoiled, so the same rows are found before and after
  have hfound : Option.Rel DefaultRow.SpoiledFrom (d'.orgWideDefaults.find? p)
      (d.orgWideDefaults.find? p) :=
    rel_find?_of_forall₂ (fun r' r hr => by simp only [p, hr.tenant, hr.collection])
      h.orgWideDefaults
  rw [Store.defaultOf_eq, hanswer'] at hgrants
  rw [Store.defaultOf_eq, hanswer]
  cases hrow : d.orgWideDefaults.find? p with
  | none => rfl
  | some r =>
    cases hrow' : d'.orgWideDefaults.find? p with
    | none =>
      rw [hrow, hrow'] at hfound
      cases hfound
    | some r' =>
      rw [hrow, hrow'] at hfound
      cases hfound with
      | some hspoiled =>
        obtain ⟨x, hx⟩ := Option.isSome_iff_exists.1
          (DefaultRow.isSome_model? (hcomplete r (List.mem_of_find?_eq_some hrow)))
        obtain ⟨x', hx'⟩ := Option.isSome_iff_exists.1
          (DefaultRow.isSome_model? (hcomplete' r' (List.mem_of_find?_eq_some hrow')))
        rw [hrow', Option.bind_some, hx'] at hgrants
        rw [Option.bind_some, hx]
        exact hspoiled.grants hx' hx hgrants

/-- **Spoiled tables hold no more** than they did. -/
theorem extends_contents (hd : d.isComplete = true) (settings : EngineSettings) :
    Deployment.Extends ⟨d.contents, settings⟩ ⟨d'.contents, settings⟩ where
  users u hu := by
    rw [contents, h.users] at hu
    exact hu
  memberships := mem_filterMap_of_forall₂ (fun _ _ hr _ => hr.model?) h.memberships
  rules rule hrule := mem_contents_rules.2
    (mem_filterMap_of_forall₂ (fun _ _ hr _ => hr.model?) h.rules rule (mem_contents_rules.1 hrule))
  shares := mem_filterMap_of_forall₂ (fun _ _ hr _ => hr.model?) h.shares
  permission _ _ := .refl _
  orgWideDefault _ _ _ := h.grants_defaultOf hd
  scope := id
  depth := le_rfl
  failing := rfl

end Database.SpoiledFrom

/-! ### Users with one id -/

/-- The first user with each id. -/
def firstUsers : List User → List User
  | [] => []
  | u :: us => u :: (firstUsers us).filter fun x => x.id ≠ u.id

theorem nodup_firstUsers (us : List User) : ((firstUsers us).map (·.id)).Nodup := by
  induction us with
  | nil => exact List.nodup_nil
  | cons u us ih =>
    rw [firstUsers, List.map_cons, List.nodup_cons]
    refine ⟨fun hu => ?_, ih.sublist (List.filter_sublist.map _)⟩
    obtain ⟨x, hx, hid⟩ := List.mem_map.1 hu
    exact of_decide_eq_true (List.mem_filter.1 hx).2 hid

theorem find?_firstUsers (us : List User) (id : UserId) :
    ((firstUsers us).find? fun u => u.id = id) = us.find? fun u => u.id = id := by
  induction us with
  | nil => rfl
  | cons u us ih =>
    rw [firstUsers, find?_put (fun u : User => u.id) (k := id) fun u => decide_eq_true_iff, ih,
      List.find?_cons]
    by_cases hu : u.id = id <;> simp [hu]

namespace Store

/-- A store that keeps the first user with each id only. -/
def withFirstUsers (s : Store) : Store := { s with users := firstUsers s.users }

theorem consistent_withFirstUsers (s : Store) : s.withFirstUsers.Consistent :=
  ⟨nodup_firstUsers s.users⟩

theorem answer_withFirstUsers (s : Store) {c : Query} (hc : c.IsDecisive) :
    s.withFirstUsers.answer c = s.answer c := by
  cases c with
  | user id => exact find?_firstUsers s.users id
  | objectPermission | collectionShares | subordinates | roleHolders => exact hc.elim
  | _ => rfl

end Store

/-! ### Access through spoiled tables -/

namespace Database

section Engines

variable {d : Database} (hd : d.isComplete = true) (permissions : Providers)
  (settings : EngineSettings)

include hd

theorem answeredFrom_contents :
    (d.engine .healthy permissions settings).AnsweredFrom d.contents Query.IsCollective :=
  fun _ hc => engine_ask hd rfl permissions settings hc.provider_ne

theorem answeredFrom_firstUsers :
    (d.engine .healthy permissions settings).AnsweredFrom d.contents.withFirstUsers
      Query.IsDecisive := by
  intro c hc
  rw [d.contents.answer_withFirstUsers hc]
  exact engine_ask hd rfl permissions settings hc.provider_ne

theorem exists_standsFor (user : UserId) :
    ∃ subject, (d.engine .healthy permissions settings).StandsFor False (.user user)
        (.subject subject) ∧
      d.contents.withFirstUsers.Resolves settings.maxGroupDepth user subject := by
  have he := answeredFrom_firstUsers hd permissions settings
  obtain ⟨subject, hsubject, hresolves⟩ := Store.exists_ok_resolveSubject
    (he (.user user) trivial) (Store.groups_of_decisive he)
  exact ⟨subject, ⟨hresolves.same_user.symm, .alike (.given subject subject hsubject rfl rfl)⟩,
    hresolves⟩

end Engines

/-- Tables know of no bypass. -/
theorem not_bypasses_contents (d : Database) (user : UserId) (collection : CollectionId)
    (access : AccessType) : ¬ (d.contents.permissionOf user collection).bypasses access = true := by
  cases access <;> exact Bool.false_ne_true

namespace SpoiledFrom

variable {d' d : Database} (h : d'.SpoiledFrom d) (hd : d.isComplete = true)
  (permissions : Providers) (settings : EngineSettings) {subject' subject : AccessSubject}

include h hd

theorem extends_firstUsers : Deployment.Extends ⟨d.contents.withFirstUsers, settings⟩
    ⟨d'.contents.withFirstUsers, settings⟩ :=
  { h.extends_contents hd settings with
    users := fun u hu => by
      have hsame : d'.contents.users = d.contents.users := by rw [contents, contents, h.users]
      rwa [Store.withFirstUsers, hsame] at hu }

/-- What a subject is granted over spoiled tables, a subject that extends it was granted before. -/
theorem isGranted_subject (hs : subject.Extends subject') {record : Record} {access : AccessType}
    (hg : ((d'.engine .healthy permissions settings).evaluateFor (.subject subject') record
      access).IsGranted) :
    ((d.engine .healthy permissions settings).evaluateFor (.subject subject) record
      access).IsGranted := by
  obtain ⟨decision', hdecision', hgranted'⟩ := hg
  rw [Engine.outcome_evaluateFor] at hdecision'
  -- both ask the same for the permission
  obtain ⟨permission, hpermission', -⟩ := Run.outcome_bind_eq_ok.1 hdecision'
  have hpermission : ((d.engine .healthy permissions settings).ask (.objectPermission subject.user
      record.collection)).outcome = .ok permission := by
    rw [hs.same_user]
    exact hpermission'
  obtain ⟨_, hsame, hiff'⟩ := d'.contents.consistent_withFirstUsers.exists_grants_decide
    (answeredFrom_firstUsers (h.isComplete hd) permissions settings) hpermission'
    fun hbypass => absurd hbypass (d'.not_bypasses_contents _ _ _)
  cases hdecision'.symm.trans hsame
  obtain ⟨decision, hdecision, hiff⟩ := d.contents.consistent_withFirstUsers.exists_grants_decide
    (answeredFrom_firstUsers hd permissions settings) hpermission
    fun hbypass => absurd hbypass (d.not_bypasses_contents _ _ _)
  obtain ⟨hpermits, hgrants⟩ := hiff'.1 hgranted'
  exact ⟨decision, Engine.outcome_evaluateFor.trans hdecision, hiff.2
    ⟨hpermits, hgrants.imp_right ((h.extends_firstUsers hd settings).grants hs)⟩⟩

theorem admits_subject (hs : subject.Extends subject') {tenant : TenantId}
    {collection : CollectionId} {access : AccessType} {record : RecordId} {owner : Option UserId}
    (hf : ((d'.engine .healthy permissions settings).filterFor (.subject subject') tenant
      collection access).Admits record owner) :
    ((d.engine .healthy permissions settings).filterFor (.subject subject) tenant
      collection access).Admits record owner := by
  obtain ⟨f', hf', hadmits'⟩ := hf
  rw [Engine.outcome_filterFor] at hf'
  obtain ⟨permission, hpermission', -⟩ := Run.outcome_bind_eq_ok.1 hf'
  have hpermission : ((d.engine .healthy permissions settings).ask (.objectPermission subject.user
      collection)).outcome = .ok permission := by
    rw [hs.same_user]
    exact hpermission'
  -- both filters admit what is granted, and spoiled tables grant nothing more
  obtain ⟨_, hsame, hiff'⟩ := Store.exists_grants_compile
    (answeredFrom_contents (h.isComplete hd) permissions settings) hpermission'
    fun hbypass => absurd hbypass (d'.not_bypasses_contents _ _ _)
  cases hf'.symm.trans hsame
  obtain ⟨f, hf, hiff⟩ := Store.exists_grants_compile
    (answeredFrom_contents hd permissions settings) hpermission
    fun hbypass => absurd hbypass (d.not_bypasses_contents _ _ _)
  obtain ⟨hpermits, hgrants⟩ := (hiff' record owner).1 hadmits'
  exact ⟨f, Engine.outcome_filterFor.trans hf, (hiff record owner).2
    ⟨hpermits, hgrants.imp_right ((h.extends_contents hd settings).grants hs)⟩⟩

/-- A user resolves to a subject that is extended by the one that they resolved to before. -/
theorem exists_subjects (user : UserId) :
    ∃ subject' subject, (d'.engine .healthy permissions settings).StandsFor False (.user user)
        (.subject subject') ∧
      (d.engine .healthy permissions settings).StandsFor False (.user user) (.subject subject) ∧
      subject.Extends subject' := by
  obtain ⟨subject', hstands', hresolves'⟩ :=
    exists_standsFor (h.isComplete hd) permissions settings user
  obtain ⟨subject, hstands, hresolves⟩ := exists_standsFor hd permissions settings user
  exact ⟨subject', subject, hstands', hstands, (h.extends_firstUsers hd settings).resolves
    d'.contents.consistent_withFirstUsers d.contents.consistent_withFirstUsers hresolves'
    hresolves⟩

theorem isGranted_evaluateFor (caller : Caller) {record : Record} {access : AccessType}
    (hg : ((d'.engine .healthy permissions settings).evaluateFor caller record
      access).IsGranted) :
    ((d.engine .healthy permissions settings).evaluateFor caller record access).IsGranted := by
  cases caller with
  | subject subject => exact h.isGranted_subject hd permissions settings (.refl subject) hg
  | user user =>
    obtain ⟨subject', subject, hstands', hstands, hs⟩ := h.exists_subjects hd permissions settings
      user
    rw [Run.IsGranted, (hstands'.evaluateFor record access).outcome_eq not_false] at hg
    rw [Run.IsGranted, (hstands.evaluateFor record access).outcome_eq not_false]
    exact h.isGranted_subject hd permissions settings hs hg

theorem admits_filterFor (caller : Caller) {tenant : TenantId} {collection : CollectionId}
    {access : AccessType} {record : RecordId} {owner : Option UserId}
    (hf : ((d'.engine .healthy permissions settings).filterFor caller tenant collection
      access).Admits record owner) :
    ((d.engine .healthy permissions settings).filterFor caller tenant collection
      access).Admits record owner := by
  cases caller with
  | subject subject => exact h.admits_subject hd permissions settings (.refl subject) hf
  | user user =>
    obtain ⟨subject', subject, hstands', hstands, hs⟩ := h.exists_subjects hd permissions settings
      user
    rw [Run.Admits, (hstands'.filterFor tenant collection access).outcome_eq not_false] at hf
    rw [Run.Admits, (hstands.filterFor tenant collection access).outcome_eq not_false]
    exact h.admits_subject hd permissions settings hs hf

end SpoiledFrom

/-- **Spoiled tables widen nothing.**  Whatever object permissions there are, a user and a subject
were granted all that they are granted over the spoiled tables, and their filters admitted all
records that they admit over them. -/
theorem spoiled_tables_widen_nothing (d' d : Database) (hd : d.isComplete = true)
    (h : d'.SpoiledFrom d) (permissions : Providers) (settings : EngineSettings) :
    let before := d.engine .healthy permissions settings
    let later := d'.engine .healthy permissions settings
    ((∀ user record access, (later.evaluate user record access).IsGranted →
        (before.evaluate user record access).IsGranted) ∧
      ∀ subject record access, (later.evaluateAs subject record access).IsGranted →
        (before.evaluateAs subject record access).IsGranted) ∧
    (∀ user tenant collection access record owner,
        (later.filter user tenant collection access).Admits record owner →
          (before.filter user tenant collection access).Admits record owner) ∧
      ∀ subject tenant collection access record owner,
        (later.filterAs subject tenant collection access).Admits record owner →
          (before.filterAs subject tenant collection access).Admits record owner := by
  intro before later
  refine ⟨⟨?_, ?_⟩, ?_, ?_⟩
  · exact fun user record access => h.isGranted_evaluateFor hd permissions settings (.user user)
  · exact fun subject record access =>
      h.isGranted_evaluateFor hd permissions settings (.subject subject)
  · exact fun user tenant collection access record owner =>
      h.admits_filterFor hd permissions settings (.user user)
  · exact fun subject tenant collection access record owner =>
      h.admits_filterFor hd permissions settings (.subject subject)

/-- A readable collection with a rule for a group, and a record that is shared with the group around
it. -/
def sharedTables : Database where
  orgWideDefaults := [⟨some "acme", some "cases", some "PUBLIC_READ"⟩]
  rules := [⟨some "all", some "acme", some "cases", none, some "CRITERIA_BASED", none, none, none,
    some "GROUP", some "desk", some "READ_WRITE", some true, some default⟩]
  shares := [⟨some "share", some "acme", some "cases", some "r", some "GROUP", some "team",
    some "READ_WRITE", none, some default⟩]
  memberships := [⟨some "team", some "GROUP", some "desk"⟩, ⟨some "desk", some "USER", some "ann"⟩,
    ⟨some "desk", some "USER", some "bob"⟩]

/-- The same with texts that name nothing, in the default, in the rule and in one membership. -/
def unreadableTables : Database where
  orgWideDefaults := [⟨some "acme", some "cases", some "OPEN"⟩]
  rules := [⟨some "all", some "acme", some "cases", none, some "LEGACY", none, none, none,
    some "GROUP", some "desk", some "READ_WRITE", some true, some default⟩]
  shares := [⟨some "share", some "acme", some "cases", some "r", some "GROUP", some "team",
    some "READ_WRITE", none, some default⟩]
  memberships := [⟨some "team", some "GROUP", some "desk"⟩, ⟨some "desk", some "USER", some "ann"⟩,
    ⟨some "desk", some "ROBOT", some "bob"⟩]

theorem unreadableTables_spoiledFrom : unreadableTables.SpoiledFrom sharedTables := by
  have hdefault : ∀ a : DefaultAccess, "OPEN" ≠ a.name := by
    rintro (_ | _ | _) <;> decide
  have hkind : ∀ a : RuleKind, "LEGACY" ≠ a.name := by
    rintro (_ | _) <;> simp [RuleKind.name]
  have htype : ∀ a : MemberType, "ROBOT" ≠ a.name := by
    rintro (_ | _) <;> decide
  refine ⟨.cons ⟨rfl, rfl, .inr ⟨_, rfl, hdefault⟩⟩ .nil, .cons ?_ .nil, .cons ?_ .nil, rfl,
    .cons ?_ (.cons ?_ (.cons ⟨rfl, .inr ⟨_, rfl, htype⟩, rfl⟩ .nil))⟩
  · exact ⟨rfl, rfl, rfl, rfl, .inr ⟨_, rfl, hkind⟩, .inl rfl, .inl rfl, rfl, .inl rfl, rfl,
      .inl rfl, rfl, rfl⟩
  · exact ⟨rfl, rfl, rfl, rfl, .inl rfl, rfl, .inl rfl, rfl, rfl⟩
  · exact ⟨rfl, .inl rfl, rfl⟩
  · exact ⟨rfl, .inl rfl, rfl⟩

/-- What a share gives through nested groups that are still readable, it gave before. -/
theorem share_gave_before :
    sharedTables.isComplete = true ∧ unreadableTables.SpoiledFrom sharedTables ∧
    ((unreadableTables.engine .healthy Store.empty.providers ⟨10, .direct⟩).evaluate ⟨"ann"⟩
      ⟨⟨"acme"⟩, ⟨"cases"⟩, ⟨"r"⟩, none⟩ .edit).IsGranted ∧
    ((sharedTables.engine .healthy Store.empty.providers ⟨10, .direct⟩).evaluate ⟨"ann"⟩
      ⟨⟨"acme"⟩, ⟨"cases"⟩, ⟨"r"⟩, none⟩ .edit).IsGranted := by
  have hcomplete : sharedTables.isComplete = true := by decide
  have hlater : ((unreadableTables.engine .healthy Store.empty.providers ⟨10, .direct⟩).evaluate
      ⟨"ann"⟩ ⟨⟨"acme"⟩, ⟨"cases"⟩, ⟨"r"⟩, none⟩ .edit).IsGranted := by
    decide +kernel
  obtain ⟨⟨hevaluate, -⟩, -⟩ := spoiled_tables_widen_nothing unreadableTables sharedTables
    hcomplete unreadableTables_spoiledFrom Store.empty.providers ⟨10, .direct⟩
  exact ⟨hcomplete, unreadableTables_spoiledFrom, hlater, hevaluate _ _ _ hlater⟩

end Database

end RecordAccess
