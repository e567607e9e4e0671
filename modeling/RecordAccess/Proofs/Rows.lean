import Mathlib.Tactic.SplitIfs
import RecordAccess.Database.Row

/-!
# Rows and their models

Each row of a table stands for at most one model (`DefaultRow.model?`, `RuleRow.model?` and the
like).  A row can be read when no required column is null, and then its columns are taken as they
are (`RuleRow.read_eq_ok`, `ShareRow.read_eq_ok`).  What is read of a rule or a share makes sense
when its choices are texts that name something (`StoredRule.MakesSense`, `StoredShare.MakesSense`).

The main statement is that rules and shares are interpreted exactly when they make sense, that they
can be written back as the row they came from, and that all that is written is read again
(`rows_stand_for_models`).  The row of a rule comes back tidied: columns that the rule does not use
are cleared, and a missing name or missing criteria are spelled out (`StoredRule.tidied`).
-/

namespace RecordAccess

/-! ### Complete rows -/

/-- The tenant, the collection and the default are there. -/
def DefaultRow.isComplete (r : DefaultRow) : Bool :=
  r.tenant.isSome && r.collection.isSome && r.internalAccess.isSome

/-- The id is there; users need nothing else. -/
def UserRow.isComplete (r : UserRow) : Bool := r.id.isSome

/-- The group and the member are there. -/
def MembershipRow.isComplete (r : MembershipRow) : Bool := r.group.isSome && r.member.isSome

/-- All columns are there but the name, the source and the criteria. -/
def RuleRow.isComplete (r : RuleRow) : Bool :=
  r.id.isSome && r.tenant.isSome && r.collection.isSome && r.ruleType.isSome &&
    r.sharedToType.isSome && r.sharedToId.isSome && r.accessLevel.isSome && r.active.isSome &&
    r.createdAt.isSome

/-- All columns are there but the reason. -/
def ShareRow.isComplete (r : ShareRow) : Bool :=
  r.id.isSome && r.tenant.isSome && r.collection.isSome && r.record.isSome &&
    r.sharedWithType.isSome && r.sharedWithId.isSome && r.accessLevel.isSome && r.createdAt.isSome

/-! ### Models of rows -/

/-- The default that a row stands for. -/
def DefaultRow.model? (r : DefaultRow) : Option OrgWideDefault := r.read.toOption

/-- The user that a row stands for. -/
def UserRow.model? (r : UserRow) : Option User := r.read.toOption

/-- The rule that a row stands for, if it makes sense. -/
def RuleRow.model? (r : RuleRow) : Option SharingRule :=
  r.read.toOption.bind fun stored => stored.interpret.toOption

/-- The share that a row stands for, if it makes sense. -/
def ShareRow.model? (r : ShareRow) : Option RecordShare :=
  r.read.toOption.bind fun stored => stored.interpret.toOption

/-- The member type that is stored under a name. -/
def MemberType.ofColumn? (text : String) : Option MemberType :=
  if text = "USER" then some .user
  else if text = "GROUP" then some .group
  else none

/-- The membership that a row stands for; only users and groups are members. -/
def MembershipRow.model? (r : MembershipRow) : Option Membership := do
  let group ← r.group
  let type ← r.memberType.bind MemberType.ofColumn?
  let member ← r.member
  pure ⟨⟨group⟩, type, member⟩

theorem requiredColumn_bind_eq_ok {α β : Type} {name : String} {v : Option α}
    {f : α → Except DatabaseCause β} {b : β} :
    (requiredColumn name v >>= f) = .ok b ↔ ∃ a, v = some a ∧ f a = .ok b := by
  cases v with
  | none => exact ⟨fun h => (nomatch h), fun ⟨_, h, _⟩ => (nomatch h)⟩
  | some a => exact ⟨fun h => ⟨a, rfl, h⟩, fun ⟨_, heq, h⟩ => Option.some.inj heq ▸ h⟩

theorem toOption_eq_some {ε α : Type} {x : Except ε α} {a : α} :
    x.toOption = some a ↔ x = .ok a := by
  cases x <;> simp [Except.toOption]

theorem isSome_toOption_iff {ε α : Type} {x : Except ε α} :
    x.toOption.isSome = true ↔ ∃ a, x = .ok a := by
  simp only [Option.isSome_iff_exists, toOption_eq_some]

theorem DefaultRow.columns_of_model? {r : DefaultRow} {d : OrgWideDefault}
    (h : r.model? = some d) :
    r.tenant = some d.tenant.text ∧ r.collection = some d.collection.text ∧
      ∃ text, r.internalAccess = some text ∧ d.access = .ofColumn text := by
  have h := toOption_eq_some.1 h
  simp only [read, requiredColumn_bind_eq_ok] at h
  obtain ⟨tenant, ht, collection, hc, access, ha, heq⟩ := h
  cases heq
  exact ⟨ht, hc, access, ha, rfl⟩

theorem UserRow.columns_of_model? {r : UserRow} {u : User} (h : r.model? = some u) :
    r.id = some u.id.text ∧ r.tenant.map Id.mk = u.tenant ∧ r.manager.map Id.mk = u.manager ∧
      r.role.map Id.mk = u.role := by
  have h := toOption_eq_some.1 h
  simp only [read, requiredColumn_bind_eq_ok] at h
  obtain ⟨id, hid, heq⟩ := h
  cases heq
  exact ⟨hid, rfl, rfl, rfl⟩

theorem MemberType.name_inj {a b : MemberType} : a.name = b.name ↔ a = b := by
  cases a <;> cases b <;> simp [name]

theorem MemberType.eq_of_ofColumn? {text : String} {type : MemberType}
    (h : ofColumn? text = some type) : text = type.name := by
  unfold ofColumn? at h
  split_ifs at h with htext htext
  all_goals
    cases h
    exact htext

theorem MembershipRow.columns_of_model? {r : MembershipRow} {m : Membership}
    (h : r.model? = some m) :
    r.group = some m.group.text ∧ r.memberType = some m.memberType.name ∧
      r.member = some m.member := by
  obtain ⟨group, hgroup, h⟩ := Option.bind_eq_some_iff.1 h
  obtain ⟨type, htype, h⟩ := Option.bind_eq_some_iff.1 h
  obtain ⟨member, hmember, h⟩ := Option.bind_eq_some_iff.1 h
  obtain ⟨text, htext, htype⟩ := Option.bind_eq_some_iff.1 htype
  cases h
  exact ⟨hgroup, htext.trans (congrArg some (MemberType.eq_of_ofColumn? htype)), hmember⟩

theorem DefaultRow.isSome_model? {r : DefaultRow} (h : r.isComplete = true) :
    r.model?.isSome = true := by
  obtain ⟨tenant, collection, access⟩ := r
  simp only [isComplete, Bool.and_eq_true, Option.isSome_iff_exists] at h
  obtain ⟨⟨⟨_, rfl⟩, _, rfl⟩, _, rfl⟩ := h
  rfl

theorem UserRow.isSome_model? {r : UserRow} (h : r.isComplete = true) :
    r.model?.isSome = true := by
  obtain ⟨id, tenant, manager, role⟩ := r
  obtain ⟨_, rfl⟩ := Option.isSome_iff_exists.1 h
  rfl

theorem MembershipRow.exists_model? {r : MembershipRow} (h : r.isComplete = true)
    {type : MemberType} (htype : r.memberType = some type.name) : ∃ m, r.model? = some m := by
  obtain ⟨group, _, member⟩ := r
  simp only [isComplete, Bool.and_eq_true, Option.isSome_iff_exists] at h
  obtain ⟨⟨_, rfl⟩, _, rfl⟩ := h
  cases htype
  cases type <;> exact ⟨_, rfl⟩

/-! ### Choices -/

/-- The texts that name a kind of principal. -/
def Principal.kinds : List String := ["USER", "GROUP", "QUEUE", "ROLE"]

theorem Principal.ofParts?_eq_some {kind id : String} {p : Principal} :
    ofParts? kind id = some p ↔ kind = p.kind ∧ id = p.idText := by
  constructor
  · intro h
    unfold ofParts? at h
    split_ifs at h with hkind hkind hkind hkind
    all_goals
      cases h
      exact ⟨hkind, rfl⟩
  · rintro ⟨rfl, rfl⟩
    exact p.ofParts?_kind_idText

theorem Principal.kind_mem_kinds (p : Principal) : p.kind ∈ kinds := by
  cases p <;> simp [kind, kinds]

theorem Principal.exists_ofParts?_iff {kind : String} (id : String) :
    (∃ p, ofParts? kind id = some p) ↔ kind ∈ kinds := by
  simp only [ofParts?_eq_some]
  constructor
  · rintro ⟨p, rfl, -⟩
    exact p.kind_mem_kinds
  · intro h
    simp only [kinds, List.mem_cons, List.not_mem_nil, or_false] at h
    rcases h with rfl | rfl | rfl | rfl
    · exact ⟨.user ⟨id⟩, rfl, rfl⟩
    · exact ⟨.group ⟨id⟩, rfl, rfl⟩
    · exact ⟨.queue ⟨id⟩, rfl, rfl⟩
    · exact ⟨.role ⟨id⟩, rfl, rfl⟩

/-- The texts that name a kind of subject. -/
def ShareSubject.kinds : List String := ["USER", "GROUP"]

theorem ShareSubject.ofParts?_eq_some {kind id : String} {w : ShareSubject} :
    ofParts? kind id = some w ↔ kind = w.kind ∧ id = w.idText := by
  constructor
  · intro h
    unfold ofParts? at h
    split_ifs at h with hkind hkind
    all_goals
      cases h
      exact ⟨hkind, rfl⟩
  · rintro ⟨rfl, rfl⟩
    exact w.ofParts?_kind_idText

theorem ShareSubject.kind_mem_kinds (w : ShareSubject) : w.kind ∈ kinds := by
  cases w <;> simp [kind, kinds]

theorem ShareSubject.exists_ofParts?_iff {kind : String} (id : String) :
    (∃ w, ofParts? kind id = some w) ↔ kind ∈ kinds := by
  simp only [ofParts?_eq_some]
  constructor
  · rintro ⟨w, rfl, -⟩
    exact w.kind_mem_kinds
  · intro h
    simp only [kinds, List.mem_cons, List.not_mem_nil, or_false] at h
    rcases h with rfl | rfl
    · exact ⟨.user ⟨id⟩, rfl, rfl⟩
    · exact ⟨.group ⟨id⟩, rfl, rfl⟩

/-- The texts that name a level. -/
def AccessLevel.names : List String := ["READ", "READ_WRITE"]

theorem AccessLevel.ofColumn?_eq_some {text : String} {level : AccessLevel} :
    ofColumn? text = some level ↔ text = level.name := by
  constructor
  · intro h
    unfold ofColumn? at h
    split_ifs at h with htext htext
    all_goals
      cases h
      exact htext
  · rintro rfl
    exact level.ofColumn?_name

theorem AccessLevel.name_mem_names (level : AccessLevel) : level.name ∈ names := by
  cases level <;> simp [name, names]

theorem AccessLevel.exists_ofColumn?_iff {text : String} :
    (∃ level, ofColumn? text = some level) ↔ text ∈ names := by
  simp only [ofColumn?_eq_some]
  constructor
  · rintro ⟨level, rfl⟩
    exact level.name_mem_names
  · intro h
    simp only [names, List.mem_cons, List.not_mem_nil, or_false] at h
    rcases h with rfl | rfl
    · exact ⟨.read, rfl⟩
    · exact ⟨.readWrite, rfl⟩

/-! ### Rules -/

/-- The row with the columns that were read. -/
def StoredRule.toRow (r : StoredRule) : RuleRow where
  id := some r.id
  tenant := some r.tenant
  collection := some r.collection
  name := r.name
  ruleType := some r.ruleType
  sharedFromType := r.sharedFromType
  sharedFromId := r.sharedFromId
  criteria := r.criteria
  sharedToType := some r.sharedToType
  sharedToId := some r.sharedToId
  accessLevel := some r.accessLevel
  active := some r.active
  createdAt := some r.createdAt

theorem RuleRow.read_eq_ok {r : RuleRow} {stored : StoredRule} :
    r.read = .ok stored ↔ r = stored.toRow := by
  constructor
  · intro h
    simp only [read, requiredColumn_bind_eq_ok] at h
    obtain ⟨id, hid, tenant, ht, collection, hc, type, htype, toType, hto, toId, htoId, level, hl,
      active, ha, time, htime, heq⟩ := h
    cases heq
    rw [RuleRow.mk.injEq]
    exact ⟨hid, ht, hc, rfl, htype, rfl, rfl, rfl, hto, htoId, hl, ha, htime⟩
  · rintro rfl
    rfl

theorem RuleRow.isComplete_iff {r : RuleRow} :
    r.isComplete = true ↔ ∃ stored, r.read = .ok stored := by
  simp only [read_eq_ok]
  constructor
  · intro h
    obtain ⟨id, tenant, collection, name, type, fromType, fromId, criteria, toType, toId, level,
      active, time⟩ := r
    simp only [isComplete, Bool.and_eq_true, Option.isSome_iff_exists, and_assoc] at h
    obtain ⟨⟨id, rfl⟩, ⟨tenant, rfl⟩, ⟨collection, rfl⟩, ⟨type, rfl⟩, ⟨toType, rfl⟩, ⟨toId, rfl⟩,
      ⟨level, rfl⟩, ⟨active, rfl⟩, time, rfl⟩ := h
    exact ⟨⟨id, tenant, collection, name, type, fromType, fromId, criteria, toType, toId, level,
      active, time⟩, rfl⟩
  · rintro ⟨stored, rfl⟩
    rfl

namespace StoredRule

/-- The kind and the id of a source are there, and the kind is that of a principal. -/
def NamesSource (r : StoredRule) : Prop :=
  (∃ kind ∈ Principal.kinds, r.sharedFromType = some kind) ∧ r.sharedFromId.isSome = true

instance (r : StoredRule) : Decidable r.NamesSource := inferInstanceAs (Decidable (_ ∧ _))

/-- The columns hold texts that name something.  Only a rule about owners needs a source; what a
rule with criteria says of one does not matter. -/
structure MakesSense (r : StoredRule) : Prop where
  kind : r.ruleType = "OWNER_BASED" ∧ r.NamesSource ∨ r.ruleType = "CRITERIA_BASED"
  sharedTo : r.sharedToType ∈ Principal.kinds
  level : r.accessLevel ∈ AccessLevel.names

instance (r : StoredRule) : Decidable r.MakesSense :=
  decidable_of_iff (_ ∧ _ ∧ _)
    ⟨fun ⟨hkind, hto, hlevel⟩ => ⟨hkind, hto, hlevel⟩, fun h => ⟨h.kind, h.sharedTo, h.level⟩⟩

/-- The same rule without the columns that it does not use, and with an empty name or null criteria
where there are none. -/
def tidied (r : StoredRule) : StoredRule :=
  let named := { r with name := some (r.name.getD "") }
  if r.ruleType = "OWNER_BASED" then { named with criteria := none }
  else
    { named with
      sharedFromType := none
      sharedFromId := none
      criteria := some (r.criteria.getD .null) }

/-- The rule of a row whose choices are known. -/
def withChoices (r : StoredRule) (kind : RuleKind) (sharedTo : Principal) (level : AccessLevel) :
    SharingRule :=
  ⟨r.id, ⟨r.tenant⟩, ⟨r.collection⟩, r.name.getD "", kind, sharedTo, level, r.active, r.createdAt⟩

variable {r : StoredRule}

theorem source?_eq_some {p : Principal} :
    r.source? = some p ↔ r.sharedFromType = some p.kind ∧ r.sharedFromId = some p.idText := by
  unfold source?
  split
  · rename_i kind id hkind hid
    rw [Principal.ofParts?_eq_some, hkind, hid, Option.some.injEq, Option.some.injEq]
  · rename_i hnone
    exact ⟨nofun, fun ⟨hkind, hid⟩ => (hnone _ _ hkind hid).elim⟩

theorem exists_source?_iff : (∃ p, r.source? = some p) ↔ r.NamesSource := by
  constructor
  · rintro ⟨p, hp⟩
    obtain ⟨hkind, hid⟩ := source?_eq_some.1 hp
    exact ⟨⟨p.kind, p.kind_mem_kinds, hkind⟩, Option.isSome_iff_exists.2 ⟨p.idText, hid⟩⟩
  · rintro ⟨⟨kind, hmem, hkind⟩, hid⟩
    obtain ⟨id, hid⟩ := Option.isSome_iff_exists.1 hid
    obtain ⟨p, hp⟩ := (Principal.exists_ofParts?_iff id).2 hmem
    obtain ⟨rfl, rfl⟩ := Principal.ofParts?_eq_some.1 hp
    exact ⟨p, source?_eq_some.2 ⟨hkind, hid⟩⟩

theorem interpretKind_eq_ok {kind : RuleKind} :
    r.interpretKind = .ok kind ↔
      (r.ruleType = "OWNER_BASED" ∧ ∃ p, r.source? = some p ∧ kind = .ownerBased p) ∨
      (r.ruleType = "CRITERIA_BASED" ∧ kind = .criteriaBased (r.criteria.getD .null)) := by
  unfold interpretKind
  split_ifs with howner hcriteria
  · cases hsource : r.source? <;> simp [howner, eq_comm]
  · simp [hcriteria, eq_comm]
  · simp [howner, hcriteria]

theorem exists_interpretKind_iff :
    (∃ kind, r.interpretKind = .ok kind) ↔
      r.ruleType = "OWNER_BASED" ∧ r.NamesSource ∨ r.ruleType = "CRITERIA_BASED" := by
  simp only [interpretKind_eq_ok, ← exists_source?_iff]
  constructor
  · rintro ⟨kind, ⟨htype, p, hp, -⟩ | ⟨htype, -⟩⟩
    · exact .inl ⟨htype, p, hp⟩
    · exact .inr htype
  · rintro (⟨htype, p, hp⟩ | htype)
    · exact ⟨.ownerBased p, .inl ⟨htype, p, hp, rfl⟩⟩
    · exact ⟨.criteriaBased _, .inr ⟨htype, rfl⟩⟩

theorem interpret_eq_ok {rule : SharingRule} :
    r.interpret = .ok rule ↔ ∃ kind sharedTo level, r.interpretKind = .ok kind ∧
      Principal.ofParts? r.sharedToType r.sharedToId = some sharedTo ∧
      AccessLevel.ofColumn? r.accessLevel = some level ∧
      rule = r.withChoices kind sharedTo level := by
  unfold interpret
  cases r.interpretKind with
  | error notice => simp
  | ok kind =>
    cases Principal.ofParts? r.sharedToType r.sharedToId with
    | none => simp
    | some sharedTo =>
      cases AccessLevel.ofColumn? r.accessLevel with
      | none => simp
      | some level => simp [withChoices, eq_comm]

/-- **Rules are interpreted exactly when they make sense.** -/
theorem exists_interpret_iff : (∃ rule, r.interpret = .ok rule) ↔ r.MakesSense := by
  simp only [interpret_eq_ok]
  constructor
  · rintro ⟨_, kind, sharedTo, level, hkind, hto, hlevel, -⟩
    exact ⟨exists_interpretKind_iff.1 ⟨kind, hkind⟩,
      (Principal.exists_ofParts?_iff _).1 ⟨sharedTo, hto⟩,
      AccessLevel.exists_ofColumn?_iff.1 ⟨level, hlevel⟩⟩
  · rintro ⟨hkind, hto, hlevel⟩
    obtain ⟨kind, hkind⟩ := exists_interpretKind_iff.2 hkind
    obtain ⟨sharedTo, hto⟩ := (Principal.exists_ofParts?_iff r.sharedToId).2 hto
    obtain ⟨level, hlevel⟩ := AccessLevel.exists_ofColumn?_iff.2 hlevel
    exact ⟨_, kind, sharedTo, level, hkind, hto, hlevel, rfl⟩

/-- A rule says all that its row says, but for columns that it does not use. -/
theorem toStored_of_interpret {rule : SharingRule} (h : r.interpret = .ok rule) :
    rule.toStored = r.tidied := by
  obtain ⟨kind, sharedTo, level, hkind, hto, hlevel, rfl⟩ := interpret_eq_ok.1 h
  obtain ⟨htoType, htoId⟩ := Principal.ofParts?_eq_some.1 hto
  have htext : r.accessLevel = level.name := AccessLevel.ofColumn?_eq_some.1 hlevel
  obtain ⟨htype, p, hp, rfl⟩ | ⟨htype, rfl⟩ := interpretKind_eq_ok.1 hkind
  -- the two kinds of rule leave different columns unused
  · obtain ⟨hfromType, hfromId⟩ := source?_eq_some.1 hp
    simp [SharingRule.toStored, withChoices, tidied, RuleKind.name, htype, hfromType, hfromId,
      ← htoType, ← htoId, ← htext]
  · simp [SharingRule.toStored, withChoices, tidied, RuleKind.name, htype, ← htoType, ← htoId,
      ← htext]

end StoredRule

/-- A rule that is written is read again. -/
theorem SharingRule.interpret_toStored (rule : SharingRule) :
    rule.toStored.interpret = .ok rule := by
  refine StoredRule.interpret_eq_ok.2 ⟨rule.kind, rule.sharedTo, rule.level, ?_,
    rule.sharedTo.ofParts?_kind_idText, rule.level.ofColumn?_name, rfl⟩
  obtain ⟨id, tenant, collection, name, kind, sharedTo, level, active, time⟩ := rule
  cases kind with
  | ownerBased p =>
    exact StoredRule.interpretKind_eq_ok.2
      (.inl ⟨rfl, p, StoredRule.source?_eq_some.2 ⟨rfl, rfl⟩, rfl⟩)
  | criteriaBased c => exact StoredRule.interpretKind_eq_ok.2 (.inr ⟨rfl, rfl⟩)

/-- The columns of a row are those of a rule.  A rule with criteria has no source, whatever the row
says of one. -/
structure RuleRow.Holds (r : RuleRow) (rule : SharingRule) : Prop where
  id : r.id = some rule.id
  tenant : r.tenant = some rule.tenant.text
  collection : r.collection = some rule.collection.text
  name : r.name.getD "" = rule.name
  kind : r.ruleType = some rule.kind.name
  source : ∀ p, rule.kind = .ownerBased p →
    r.sharedFromType = some p.kind ∧ r.sharedFromId = some p.idText
  criteria : ∀ c, rule.kind = .criteriaBased c → r.criteria.getD .null = c
  sharedToType : r.sharedToType = some rule.sharedTo.kind
  sharedToId : r.sharedToId = some rule.sharedTo.idText
  level : r.accessLevel = some rule.level.name
  active : r.active = some rule.active
  createdAt : r.createdAt = some rule.createdAt

theorem StoredRule.interpretKind_iff_columns {r : StoredRule} {kind : RuleKind} :
    r.interpretKind = .ok kind ↔ r.ruleType = kind.name ∧
      (∀ p, kind = .ownerBased p →
        r.sharedFromType = some p.kind ∧ r.sharedFromId = some p.idText) ∧
      ∀ c, kind = .criteriaBased c → r.criteria.getD .null = c := by
  rw [interpretKind_eq_ok]
  cases kind with
  | ownerBased p => simp [source?_eq_some, RuleKind.name]
  | criteriaBased c => simp [RuleKind.name, eq_comm]

/-- **A row stands for the rule that it holds**, and for no other. -/
theorem RuleRow.model?_eq_some {r : RuleRow} {rule : SharingRule} :
    r.model? = some rule ↔ r.Holds rule := by
  constructor
  · intro h
    obtain ⟨stored, hread, hinterpret⟩ := Option.bind_eq_some_iff.1 h
    -- reading takes the columns over, interpreting names the choices
    obtain rfl := read_eq_ok.1 (toOption_eq_some.1 hread)
    obtain ⟨kind, sharedTo, level, hkind, hto, hlevel, rfl⟩ :=
      StoredRule.interpret_eq_ok.1 (toOption_eq_some.1 hinterpret)
    obtain ⟨htype, hsource, hcriteria⟩ := StoredRule.interpretKind_iff_columns.1 hkind
    obtain ⟨htoType, htoId⟩ := Principal.ofParts?_eq_some.1 hto
    have htext := AccessLevel.ofColumn?_eq_some.1 hlevel
    exact ⟨rfl, rfl, rfl, rfl, congrArg some htype, hsource, hcriteria, congrArg some htoType,
      congrArg some htoId, congrArg some htext, rfl, rfl⟩
  · intro h
    obtain ⟨id, tenant, collection, name, type, fromType, fromId, criteria, toType, toId, level,
      active, time⟩ := r
    obtain ⟨hid, ht, hc, hname, htype, hsource, hcriteria, hto, htoId, hl, ha, htime⟩ := h
    dsimp only at *
    -- the row is the one that would be written, but for columns the kind leaves open
    subst hid ht hc htype hto htoId hl ha htime
    refine Option.bind_eq_some_iff.2 ⟨_, rfl, toOption_eq_some.2 (StoredRule.interpret_eq_ok.2
      ⟨rule.kind, rule.sharedTo, rule.level, ?_, rule.sharedTo.ofParts?_kind_idText,
        rule.level.ofColumn?_name, ?_⟩)⟩
    · exact StoredRule.interpretKind_iff_columns.2 ⟨rfl, hsource, hcriteria⟩
    · rw [StoredRule.withChoices, hname]

/-! ### Shares -/

/-- The row with the columns that were read. -/
def StoredShare.toRow (s : StoredShare) : ShareRow where
  id := some s.id
  tenant := some s.tenant
  collection := some s.collection
  record := some s.record
  sharedWithType := some s.sharedWithType
  sharedWithId := some s.sharedWithId
  accessLevel := some s.accessLevel
  reason := s.reason
  createdAt := some s.createdAt

theorem ShareRow.read_eq_ok {r : ShareRow} {stored : StoredShare} :
    r.read = .ok stored ↔ r = stored.toRow := by
  constructor
  · intro h
    simp only [read, requiredColumn_bind_eq_ok] at h
    obtain ⟨id, hid, tenant, ht, collection, hc, record, hr, withType, hwith, withId, hwithId,
      level, hl, time, htime, heq⟩ := h
    cases heq
    rw [ShareRow.mk.injEq]
    exact ⟨hid, ht, hc, hr, hwith, hwithId, hl, rfl, htime⟩
  · rintro rfl
    rfl

theorem ShareRow.isComplete_iff {r : ShareRow} :
    r.isComplete = true ↔ ∃ stored, r.read = .ok stored := by
  simp only [read_eq_ok]
  constructor
  · intro h
    obtain ⟨id, tenant, collection, record, withType, withId, level, reason, time⟩ := r
    simp only [isComplete, Bool.and_eq_true, Option.isSome_iff_exists, and_assoc] at h
    obtain ⟨⟨id, rfl⟩, ⟨tenant, rfl⟩, ⟨collection, rfl⟩, ⟨record, rfl⟩, ⟨withType, rfl⟩,
      ⟨withId, rfl⟩, ⟨level, rfl⟩, time, rfl⟩ := h
    exact ⟨⟨id, tenant, collection, record, withType, withId, level, reason, time⟩, rfl⟩
  · rintro ⟨stored, rfl⟩
    rfl

namespace StoredShare

/-- The columns hold texts that name something. -/
structure MakesSense (s : StoredShare) : Prop where
  sharedWith : s.sharedWithType ∈ ShareSubject.kinds
  level : s.accessLevel ∈ AccessLevel.names

instance (s : StoredShare) : Decidable s.MakesSense :=
  decidable_of_iff (_ ∧ _)
    ⟨fun ⟨hwith, hlevel⟩ => ⟨hwith, hlevel⟩, fun h => ⟨h.sharedWith, h.level⟩⟩

variable {s : StoredShare}

/-- A share says all that its row says, and is read from no other row. -/
theorem interpret_eq_ok {share : RecordShare} :
    s.interpret = .ok share ↔ s = share.toStored := by
  constructor
  · intro h
    unfold interpret at h
    split at h
    · cases h
    · rename_i hparts
      split at h
      · cases h
      · rename_i hlevel
        cases h
        obtain ⟨hkind, hid⟩ := ShareSubject.ofParts?_eq_some.1 hparts
        have htext := AccessLevel.ofColumn?_eq_some.1 hlevel
        rw [RecordShare.toStored, ← hkind, ← hid, ← htext]
  · rintro rfl
    simp [interpret, RecordShare.toStored]

/-- **Shares are interpreted exactly when they make sense.** -/
theorem exists_interpret_iff : (∃ share, s.interpret = .ok share) ↔ s.MakesSense := by
  simp only [interpret_eq_ok]
  constructor
  · rintro ⟨share, rfl⟩
    exact ⟨share.sharedWith.kind_mem_kinds, share.level.name_mem_names⟩
  · rintro ⟨hwith, hlevel⟩
    obtain ⟨w, hw⟩ := (ShareSubject.exists_ofParts?_iff s.sharedWithId).2 hwith
    obtain ⟨level, hlevel⟩ := AccessLevel.exists_ofColumn?_iff.2 hlevel
    obtain ⟨hkind, hid⟩ := ShareSubject.ofParts?_eq_some.1 hw
    have htext := AccessLevel.ofColumn?_eq_some.1 hlevel
    refine ⟨⟨s.id, ⟨s.tenant⟩, ⟨s.collection⟩, ⟨s.record⟩, w, level, s.reason, s.createdAt⟩, ?_⟩
    rw [RecordShare.toStored, ← hkind, ← hid, ← htext]

end StoredShare

/-- **A row stands for the share that it holds**, and for no other. -/
theorem ShareRow.model?_eq_some {r : ShareRow} {s : RecordShare} :
    r.model? = some s ↔ r = s.toStored.toRow := by
  simp only [model?, Option.bind_eq_some_iff, toOption_eq_some, read_eq_ok,
    StoredShare.interpret_eq_ok]
  constructor
  · rintro ⟨_, rfl, rfl⟩
    rfl
  · rintro rfl
    exact ⟨_, rfl, rfl⟩

theorem ShareRow.columns_of_model? {r : ShareRow} {s : RecordShare} (h : r.model? = some s) :
    r.tenant = some s.tenant.text ∧ r.collection = some s.collection.text ∧
      r.record = some s.record.text ∧ r.sharedWithType = some s.sharedWith.kind ∧
      r.sharedWithId = some s.sharedWith.idText ∧ r.accessLevel = some s.level.name := by
  obtain rfl := model?_eq_some.1 h
  exact ⟨rfl, rfl, rfl, rfl, rfl, rfl⟩

/-! ### Rows and what is made of them -/

/-- **Rows of rules and shares stand for their models.**  A row without nulls where columns are
required is read as it is.  What was read makes a model exactly when its texts name something; that
model can be written back as the same row, the row of a rule tidied; and every model is written as a
row that is read as the same model. -/
theorem rows_stand_for_models :
    (∀ row : RuleRow, row.isComplete = true → ∃ stored, row.read = .ok stored ∧
      row = stored.toRow ∧ ((∃ rule, stored.interpret = .ok rule) ↔ stored.MakesSense) ∧
      ∀ rule, stored.interpret = .ok rule → rule.toStored = stored.tidied) ∧
    (∀ rule : SharingRule, rule.toStored.toRow.read = .ok rule.toStored ∧
      rule.toStored.interpret = .ok rule) ∧
    (∀ row : ShareRow, row.isComplete = true → ∃ stored, row.read = .ok stored ∧
      row = stored.toRow ∧ ((∃ share, stored.interpret = .ok share) ↔ stored.MakesSense) ∧
      ∀ share, stored.interpret = .ok share → share.toStored = stored) ∧
    ∀ share : RecordShare, share.toStored.toRow.read = .ok share.toStored ∧
      share.toStored.interpret = .ok share := by
  refine ⟨fun row hrow => ?_, fun rule => ?_, fun row hrow => ?_, fun share => ?_⟩
  · obtain ⟨stored, hread⟩ := RuleRow.isComplete_iff.1 hrow
    exact ⟨stored, hread, RuleRow.read_eq_ok.1 hread, StoredRule.exists_interpret_iff,
      fun rule => StoredRule.toStored_of_interpret⟩
  · exact ⟨RuleRow.read_eq_ok.2 rfl, rule.interpret_toStored⟩
  · obtain ⟨stored, hread⟩ := ShareRow.isComplete_iff.1 hrow
    exact ⟨stored, hread, ShareRow.read_eq_ok.1 hread, StoredShare.exists_interpret_iff,
      fun share hshare => (StoredShare.interpret_eq_ok.1 hshare).symm⟩
  · exact ⟨ShareRow.read_eq_ok.2 rfl, StoredShare.interpret_eq_ok.2 rfl⟩

/-- A rule without a name and without criteria, and with a source that is none. -/
def sourcelessRow (type : String) : RuleRow :=
  ⟨some "rule", some "acme", some "cases", none, some type, some "TEAM", none, none, some "QUEUE",
    some "desk", some "READ", some true, some default⟩

/-- A share without a reason. -/
def unreasonedRow : ShareRow :=
  ⟨some "share", some "acme", some "cases", some "r", some "GROUP", some "emea", some "READ_WRITE",
    none, some default⟩

/-- A rule with criteria needs no source and comes back without one; a rule about owners makes no
sense without.  A share without a reason comes back without one. -/
theorem sourceless_row_stands_by_type :
    (sourcelessRow "CRITERIA_BASED").isComplete = true ∧
    (∃ stored rule, (sourcelessRow "CRITERIA_BASED").read = .ok stored ∧
      stored.interpret = .ok rule ∧
      rule.toStored.toRow = { sourcelessRow "CRITERIA_BASED" with
        name := some "", sharedFromType := none, criteria := some .null }) ∧
    (sourcelessRow "OWNER_BASED").isComplete = true ∧
    (∃ stored, (sourcelessRow "OWNER_BASED").read = .ok stored ∧
      ¬∃ rule, stored.interpret = .ok rule) ∧
    unreasonedRow.isComplete = true ∧
    ∃ stored share, unreasonedRow.read = .ok stored ∧ stored.interpret = .ok share ∧
      share.toStored.toRow = unreasonedRow := by
  have hcriteria : (sourcelessRow "CRITERIA_BASED").isComplete = true := rfl
  have howner : (sourcelessRow "OWNER_BASED").isComplete = true := rfl
  have hshare : unreasonedRow.isComplete = true := rfl
  obtain ⟨hrules, -, hshares, -⟩ := rows_stand_for_models
  refine ⟨hcriteria, ?_, howner, ?_, hshare, ?_⟩
  · obtain ⟨stored, hread, -, hsense, hwritten⟩ := hrules _ hcriteria
    cases hread
    obtain ⟨rule, hrule⟩ := hsense.2 (by decide)
    exact ⟨_, rule, rfl, hrule, by rw [hwritten rule hrule]; rfl⟩
  · obtain ⟨stored, hread, -, hsense, -⟩ := hrules _ howner
    cases hread
    exact ⟨_, rfl, mt hsense.1 (by decide)⟩
  · obtain ⟨stored, hread, -, hsense, hwritten⟩ := hshares _ hshare
    cases hread
    obtain ⟨share, hmade⟩ := hsense.2 (by decide)
    exact ⟨_, share, rfl, hmade, by rw [hwritten share hmade]; rfl⟩

end RecordAccess
