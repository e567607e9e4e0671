import Mathlib.Data.List.Nodup
import RecordAccess.Proofs.Json.Canonical
import RecordAccess.Proofs.Moments
import RecordAccess.Store.Snapshot

/-!
# Models read back

Every model of a snapshot is read back from the document that it is written as, and a rule or a
share whatever stamp it is read with: its id and its time are written out.  Of the documents only
what `Json.LawfulDocument` says is used, and of the text form of moments only
`Timestamp.LawfulTextForm`.

No two members of a record have one name, so a record is read member by member: each proof first
says what the members hold, then reads them.
-/

namespace RecordAccess

/-! ### Members -/

namespace Fields

variable {ν α : Type} {f : Fields ν} {name : String} {v : ν} {read : ν → Option α}

theorem ofMembers?_of_nodup {names : List String} {members : List (String × ν)}
    (h : (members.map (·.1)).Nodup) :
    ofMembers? names members = some fun n => members.lookup n := by
  have hsingle : ∀ n, (members.filter fun m => m.1 = n).length ≤ 1 := by
    intro n
    have hcount : (members.filter fun m => m.1 = n).length = (members.map (·.1)).count n := by
      rw [List.count_eq_countP, List.countP_map, List.countP_eq_length_filter]
      rfl
    rw [hcount]
    exact List.nodup_iff_count_le_one.1 h n
  simp only [ofMembers?, hsingle, decide_true, List.all_eq_true, implies_true, if_true]

theorem required_eq (h : f name = some v) : f.required name read = read v := by
  rw [required, h]

theorem withDefault_eq {a : α} (h : f name = some v) : f.withDefault name a read = read v := by
  rw [withDefault, h]

/-- A member that is written only if there is a value is read as that value, or as none. -/
theorem optional_eq [Document ν] {write : α → ν} {a : Option α} (h : f name = a.map write)
    (hnull : ∀ x, Document.isNull (write x) = false) (hread : ∀ x, read (write x) = some x) :
    f.optional name read = some a := by
  rw [optional, h]
  cases a with
  | none => rfl
  | some x => simp only [Option.map_some, hnull, hread, Bool.false_eq_true, if_false]

end Fields

/-! ### Documents -/

namespace Json

/-- What is promised of JSON values that models are read from: values are what they are written as,
and records are told by the names of their members. -/
class LawfulDocument [Document Json] : Prop where
  /-- No other value stands for a value that is left out. -/
  isNull_iff : ∀ {j : Json}, Document.isNull j = true ↔ j = .null
  text?_string : ∀ t, Document.text? (Json.string t) = some t
  bool?_bool : ∀ b, Document.bool? (Json.bool b) = some b
  items?_array : ∀ xs, Document.items? (Json.array xs) = some xs
  choice?_string : ∀ {names t}, t ∈ names → Document.choice? names (Json.string t) = some t
  /-- Members with other names are ignored. -/
  fields?_object : ∀ names (members : List (String × Json)), (members.map (·.1)).Nodup →
    ∃ f, Document.fields? names (Json.object members) = some f ∧
      ∀ n ∈ names, f n = members.lookup n
  /-- Members with other names are kept. -/
  split?_object : ∀ names (members : List (String × Json)), (members.map (·.1)).Nodup →
    ∃ f, Document.split? names (Json.object members) =
        some (f, members.filter fun m => !names.contains m.1) ∧
      ∀ n ∈ names, f n = members.lookup n
  /-- A pair of a kind and a text is told by the names of its members. -/
  kindAndText?_object : ∀ {kindName textName kinds kind} text, kindName ≠ textName →
    kind ∈ kinds → Document.kindAndText? kindName textName kinds
      (Json.object [(kindName, .string kind), (textName, .string text)]) = some (kind, text)
  /-- What belongs to a kind is what is left without the member that names it. -/
  kindAndBody?_object : ∀ {byPlace tag kinds kind} {body : List (String × Json)}, kind ∈ kinds →
    (∀ m ∈ body, m.1 ≠ tag) →
    Document.kindAndBody? byPlace tag kinds (Json.object ((tag, .string kind) :: body)) =
      some (kind, .object body)
  /-- A value without a type is kept, sorted by names. -/
  untyped?_eq : ∀ {j : Json}, j.Plain → Document.untyped? j = some j.canonical

theorem mapM_content? (members : List (String × Json)) :
    (members.mapM fun m => (Document.content? m.2).map fun c => (m.1, c)) = some members := by
  induction members with
  | nil => rfl
  | cons m members ih =>
    rw [List.mapM_cons, ih]
    rfl

theorem kindAndBody?_cons {byPlace : Bool} {tag kind : String} {kinds : List String}
    {body : List (String × Json)} (hkind : kind ∈ kinds) (hbody : ∀ m ∈ body, m.1 ≠ tag) :
    kindAndBody? byPlace tag kinds (.object ((tag, .string kind) :: body)) =
      some (kind, .object body) := by
  have htag : body.filter (fun m => m.1 = tag) = [] := by simpa using hbody
  have hrest : body.filter (fun m => m.1 ≠ tag) = body :=
    List.filter_eq_self.2 fun m hm => decide_eq_true (hbody m hm)
  simp only [ne_eq, decide_not] at hrest
  simp [kindAndBody?, kind?, htag, hrest, hkind]

instance : LawfulDocument where
  isNull_iff {j} := by cases j <;> simp [Document.isNull]
  text?_string _ := rfl
  bool?_bool _ := rfl
  items?_array _ := rfl
  choice?_string h := by simp [Document.choice?, choice?, h]
  fields?_object _ _ h := ⟨_, Fields.ofMembers?_of_nodup h, fun _ _ => rfl⟩
  split?_object names members h := by
    refine ⟨_, ?_, fun _ _ => rfl⟩
    show (Fields.ofMembers? names members).bind _ = _
    rw [Fields.ofMembers?_of_nodup h, Option.bind_some]
    exact congrArg (Option.bind · _) (mapM_content? _)
  kindAndText?_object {kindName textName kinds kind} text hne hkind := by
    have hfields : fields? [kindName, textName]
        (.object [(kindName, .string kind), (textName, .string text)]) = some _ :=
      Fields.ofMembers?_of_nodup (by simpa using hne)
    have htext : List.lookup textName [(kindName, Json.string kind), (textName, .string text)] =
        some (.string text) := by simp [List.lookup_cons, beq_false_of_ne hne.symm]
    simp [Document.kindAndText?, hfields, Fields.required, Fields.comesLater, choice?, hkind,
      members?, text?, hne, htext]
  kindAndBody?_object hkind hbody := kindAndBody?_cons hkind hbody
  untyped?_eq h := Json.untyped?_eq h

open LawfulDocument

variable [Document Json] [LawfulDocument] {α : Type} {xs : List α} {write : α → Json} {g : α → α}

theorem isNull_string (t : String) : Document.isNull (Json.string t) = false := by
  rw [← Bool.not_eq_true, isNull_iff]
  exact Json.noConfusion

theorem isNull_object (members : List (String × Json)) :
    Document.isNull (Json.object members) = false := by
  rw [← Bool.not_eq_true, isNull_iff]
  exact Json.noConfusion

theorem listOf_map {read : Json → Option α} (h : ∀ x ∈ xs, read (write x) = some x) :
    Document.listOf read (Json.array (xs.map write)) = some xs := by
  rw [Document.listOf, items?_array]
  show (xs.map write).mapM read = some xs
  induction xs with
  | nil => rfl
  | cons x xs ih =>
    obtain ⟨hx, hxs⟩ := List.forall_mem_cons.1 h
    simp [List.mapM_cons, hx, ih hxs]

theorem listOfIndexed_map {read : ℕ → Json → Option α}
    (h : ∀ x ∈ xs, ∀ i, read i (write x) = some (g x)) :
    Document.listOfIndexed read (Json.array (xs.map write)) = some (xs.map g) := by
  -- the places of the further items do not start at zero
  have hfrom : ∀ start,
      ((xs.map write).zipIdx start).mapM (fun (v, i) => read i v) = some (xs.map g) := by
    induction xs with
    | nil => exact fun _ => rfl
    | cons x xs ih =>
      intro start
      obtain ⟨hx, hxs⟩ := List.forall_mem_cons.1 h
      simp [List.mapM_cons, hx, ih hxs]
  rw [Document.listOfIndexed, items?_array]
  exact hfrom 0

end Json

open Json.LawfulDocument

variable [Document Json] [Json.LawfulDocument]

/-! ### Choices -/

theorem chosen?_name {α : Type} {all : List α} {name : α → String} {a : α} (ha : a ∈ all)
    (h : ∀ b ∈ all, name b = name a → b = a) :
    chosen? all name (Json.string (name a)) = some a := by
  have hfind : all.find? (fun b => name b = name a) = some a := by
    cases hfind : all.find? fun b => name b = name a with
    | none => simpa using List.find?_eq_none.1 hfind a ha
    | some b =>
      rw [h b (List.mem_of_find?_eq_some hfind) (by simpa using List.find?_some hfind)]
  rw [chosen?, choice?_string (List.mem_map_of_mem ha), Option.bind_some, hfind]

theorem Id.read?_toJson {kind : IdKind} (i : Id kind) : read? i.toJson = some i := by
  rw [read?, toJson, text?_string, Option.map_some]

theorem DefaultAccess.read?_toJson (a : DefaultAccess) : read? a.toJson = some a :=
  chosen?_name (by cases a <;> simp) (by cases a <;> simp [name])

theorem AccessLevel.read?_toJson (l : AccessLevel) : read? l.toJson = some l :=
  chosen?_name (by cases l <;> simp) (by cases l <;> simp [name])

theorem MemberType.read?_toJson (m : MemberType) : read? m.toJson = some m :=
  chosen?_name (by cases m <;> simp) (by cases m <;> simp [name])

theorem Principal.read?_toJson (p : Principal) : read? p.toJson = some p := by
  have hparts : Document.kindAndText? "type" "id" ["USER", "GROUP", "QUEUE", "ROLE"] p.toJson =
      some (p.kind, p.idText) :=
    kindAndText?_object p.idText (by decide) (by cases p <;> simp [kind])
  rw [read?, hparts]
  cases p <;> rfl

theorem ShareSubject.read?_toJson (s : ShareSubject) : read? s.toJson = some s := by
  have hparts : Document.kindAndText? "type" "id" ["USER", "GROUP"] s.toJson =
      some (s.kind, s.idText) :=
    kindAndText?_object s.idText (by decide) (by cases s <;> simp [kind])
  rw [read?, hparts]
  cases s <;> rfl

/-! ### Records -/

theorem ObjectPermission.read?_toJson (p : ObjectPermission) : read? p.toJson = some p := by
  have hnodup : (p.toMembers.map (·.1)).Nodup := by
    show flagNames.Nodup
    decide
  obtain ⟨f, hf, hcreate, hread, hedit, hdelete, hview, hmodify⟩ : ∃ f,
      Document.fields? flagNames p.toJson = some f ∧
      f "canCreate" = some (.bool p.canCreate) ∧ f "canRead" = some (.bool p.canRead) ∧
      f "canEdit" = some (.bool p.canEdit) ∧ f "canDelete" = some (.bool p.canDelete) ∧
      f "canViewAll" = some (.bool p.canViewAll) ∧
      f "canModifyAll" = some (.bool p.canModifyAll) :=
    (fields?_object _ _ hnodup).imp fun f h =>
      ⟨h.1, h.2 _ (by simp [flagNames]), h.2 _ (by simp [flagNames]), h.2 _ (by simp [flagNames]),
        h.2 _ (by simp [flagNames]), h.2 _ (by simp [flagNames]), h.2 _ (by simp [flagNames])⟩
  simp only [read?, hf, ofFields?, Fields.withDefault_eq hcreate, Fields.withDefault_eq hread,
    Fields.withDefault_eq hedit, Fields.withDefault_eq hdelete, Fields.withDefault_eq hview,
    Fields.withDefault_eq hmodify, bool?_bool, Option.bind_eq_bind, Option.bind_some,
    Option.pure_def]

/-- The flags of an entry are told from its own members by their names. -/
theorem PermissionEntry.read?_toJson (p : PermissionEntry) : read? p.toJson = some p := by
  obtain ⟨f, hf, huser, hcollection⟩ : ∃ f,
      Document.split? ["userId", "collectionId"] p.toJson = some (f, p.permission.toMembers) ∧
      f "userId" = some p.user.toJson ∧ f "collectionId" = some p.collection.toJson :=
    (split?_object _ _ (by simp [ObjectPermission.toMembers])).imp fun f h =>
      ⟨h.1, h.2 _ (by simp), h.2 _ (by simp)⟩
  have hflags : ObjectPermission.read? (Json.object p.permission.toMembers) = some p.permission :=
    p.permission.read?_toJson
  simp only [read?, hf, hflags, Fields.required_eq huser, Fields.required_eq hcollection,
    Id.read?_toJson, Option.bind_eq_bind, Option.bind_some, Option.pure_def]

theorem OrgWideDefault.read?_toJson (o : OrgWideDefault) : read? o.toJson = some o := by
  obtain ⟨f, hf, htenant, hcollection, haccess⟩ : ∃ f,
      Document.fields? ["tenantId", "collectionId", "internalAccess"] o.toJson = some f ∧
      f "tenantId" = some o.tenant.toJson ∧ f "collectionId" = some o.collection.toJson ∧
      f "internalAccess" = some o.access.toJson :=
    (fields?_object _ _ (by simp)).imp fun f h =>
      ⟨h.1, h.2 _ (by simp), h.2 _ (by simp), h.2 _ (by simp)⟩
  simp only [read?, hf, Fields.required_eq htenant, Fields.required_eq hcollection,
    Fields.required_eq haccess, Id.read?_toJson, DefaultAccess.read?_toJson, Option.bind_eq_bind,
    Option.bind_some, Option.pure_def]

theorem User.read?_toJson (u : User) : read? u.toJson = some u := by
  obtain ⟨f, hf, hid, htenant, hmanager, hrole⟩ : ∃ f,
      Document.fields? ["id", "tenantId", "managerId", "roleId"] u.toJson = some f ∧
      f "id" = some u.id.toJson ∧ f "tenantId" = u.tenant.map Id.toJson ∧
      f "managerId" = u.manager.map Id.toJson ∧ f "roleId" = u.role.map Id.toJson := by
    obtain ⟨id, tenant, manager, role⟩ := u
    cases tenant <;> cases manager <;> cases role <;>
      exact (fields?_object _ _ (by simp [memberIfSome])).imp fun f h =>
        ⟨h.1, h.2 _ (by simp), h.2 _ (by simp), h.2 _ (by simp), h.2 _ (by simp)⟩
  have hnull : ∀ {kind : IdKind} (i : Id kind), Document.isNull i.toJson = false := fun i =>
    Json.isNull_string i.text
  simp only [read?, hf, Fields.required_eq hid, Fields.optional_eq htenant hnull Id.read?_toJson,
    Fields.optional_eq hmanager hnull Id.read?_toJson,
    Fields.optional_eq hrole hnull Id.read?_toJson, Id.read?_toJson, Option.bind_eq_bind,
    Option.bind_some, Option.pure_def]

theorem Membership.read?_toJson (m : Membership) : read? m.toJson = some m := by
  obtain ⟨f, hf, hgroup, htype, hmember⟩ : ∃ f,
      Document.fields? ["groupId", "memberType", "memberId"] m.toJson = some f ∧
      f "groupId" = some m.group.toJson ∧ f "memberType" = some m.memberType.toJson ∧
      f "memberId" = some (.string m.member) :=
    (fields?_object _ _ (by simp)).imp fun f h =>
      ⟨h.1, h.2 _ (by simp), h.2 _ (by simp), h.2 _ (by simp)⟩
  simp only [read?, hf, Fields.required_eq hgroup, Fields.required_eq htype,
    Fields.required_eq hmember, Id.read?_toJson, MemberType.read?_toJson, text?_string,
    Option.bind_eq_bind, Option.bind_some, Option.pure_def]

/-! ### Rules and shares -/

theorem RuleKind.readIn?_ownerBased (byPlace : Bool) (p : Principal) :
    readIn? byPlace (.object (ownerBased p).toMembers) = some (.ownerBased p) := by
  obtain ⟨f, hf, hfrom⟩ : ∃ f,
      Document.fields? ["sharedFrom"] (Json.object [("sharedFrom", p.toJson)]) = some f ∧
      f "sharedFrom" = some p.toJson :=
    (fields?_object _ _ (by simp)).imp fun f h => ⟨h.1, h.2 _ (by simp)⟩
  have hkind : Document.kindAndBody? byPlace tag names (Json.object (ownerBased p).toMembers) =
      some ("OWNER_BASED", .object [("sharedFrom", p.toJson)]) :=
    kindAndBody?_object (by simp [names]) (by simp [tag])
  simp only [readIn?, hkind, bodyNames, if_true, hf, ofBody?, Fields.required_eq hfrom,
    p.read?_toJson, Option.bind_eq_bind, Option.bind_some, Option.map_some]

theorem RuleKind.readIn?_criteriaBased (byPlace : Bool) {c c' : Json}
    (h : Document.untyped? c = some c') :
    readIn? byPlace (.object (criteriaBased c).toMembers) = some (.criteriaBased c') := by
  obtain ⟨f, hf, hcriteria⟩ : ∃ f,
      Document.fields? ["criteria"] (Json.object [("criteria", c)]) = some f ∧
      f "criteria" = some c :=
    (fields?_object _ _ (by simp)).imp fun f h => ⟨h.1, h.2 _ (by simp)⟩
  have hkind : Document.kindAndBody? byPlace tag names (Json.object (criteriaBased c).toMembers) =
      some ("CRITERIA_BASED", .object [("criteria", c)]) :=
    kindAndBody?_object (by simp [names]) (by simp [tag])
  have hne : ("CRITERIA_BASED" : String) ≠ "OWNER_BASED" := by decide
  simp only [readIn?, hkind, bodyNames, hne, if_false, hf, ofBody?, if_true,
    Fields.withDefault_eq hcriteria, h, Option.bind_eq_bind, Option.bind_some, Option.map_some]

variable [Timestamp.TextForm]

theorem Timestamp.ofDocument?_toJson [LawfulTextForm] {t : Timestamp} (h : t.Ordinary) :
    ofDocument? t.toJson = some t := by
  rw [ofDocument?, toJson, text?_string, Option.bind_some, LawfulTextForm.read?_display h]

/-- A share is read back with the time that the text of its time names. -/
theorem RecordShare.read?_toJson (stamp : Stamp) {s : RecordShare} {time : Timestamp}
    (h : Timestamp.ofDocument? s.createdAt.toJson = some time) :
    read? stamp s.toJson = some { s with createdAt := time } := by
  -- no two members share a name, so each is found under its own
  obtain ⟨f, hf, hid, htenant, hcollection, hrecord, hwith, hlevel, hreason, htime⟩ : ∃ f,
      Document.fields? memberNames s.toJson = some f ∧
      f "id" = some (.string s.id) ∧ f "tenantId" = some s.tenant.toJson ∧
      f "collectionId" = some s.collection.toJson ∧ f "recordId" = some s.record.toJson ∧
      f "sharedWith" = some s.sharedWith.toJson ∧ f "accessLevel" = some s.level.toJson ∧
      f "reason" = s.reason.map .string ∧ f "createdAt" = some s.createdAt.toJson := by
    obtain ⟨id, tenant, collection, record, sharedWith, level, reason, createdAt⟩ := s
    cases reason <;>
      exact (fields?_object _ _ (by simp [memberIfSome])).imp fun f h =>
        ⟨h.1, h.2 _ (by simp [memberNames]), h.2 _ (by simp [memberNames]),
          h.2 _ (by simp [memberNames]), h.2 _ (by simp [memberNames]),
          h.2 _ (by simp [memberNames]), h.2 _ (by simp [memberNames]),
          h.2 _ (by simp [memberNames]), h.2 _ (by simp [memberNames])⟩
  simp only [read?, hf, Fields.withDefault_eq hid, Fields.required_eq htenant,
    Fields.required_eq hcollection, Fields.required_eq hrecord, Fields.required_eq hwith,
    Fields.required_eq hlevel, Fields.optional_eq hreason Json.isNull_string text?_string,
    Fields.withDefault_eq htime, h, text?_string, Id.read?_toJson, ShareSubject.read?_toJson,
    AccessLevel.read?_toJson, Option.bind_eq_bind, Option.bind_some, Option.pure_def]

/-- The members of its kind are told from a rule's own by their names.  A rule is read back with the
kind and the time that its document names. -/
theorem SharingRule.read?_toJson (stamp : Stamp) {r : SharingRule} {kind : RuleKind}
    {time : Timestamp} (hkind : RuleKind.readIn? true (.object r.kind.toMembers) = some kind)
    (h : Timestamp.ofDocument? r.createdAt.toJson = some time) :
    read? stamp r.toJson = some { r with kind := kind, createdAt := time } := by
  -- the members under no name of the rule's own are left to its kind
  obtain ⟨f, hf, hid, htenant, hcollection, hname, hto, hlevel, hactive, htime⟩ : ∃ f,
      Document.split? memberNames r.toJson = some (f, r.kind.toMembers) ∧
      f "id" = some (.string r.id) ∧ f "tenantId" = some r.tenant.toJson ∧
      f "collectionId" = some r.collection.toJson ∧ f "name" = some (.string r.name) ∧
      f "sharedTo" = some r.sharedTo.toJson ∧ f "accessLevel" = some r.level.toJson ∧
      f "active" = some (.bool r.active) ∧ f "createdAt" = some r.createdAt.toJson := by
    obtain ⟨id, tenant, collection, name, kind, sharedTo, level, active, createdAt⟩ := r
    cases kind <;>
      exact (split?_object _ _ (by simp [RuleKind.toMembers, RuleKind.tag])).imp
        fun f h =>
          ⟨h.1, h.2 _ (by simp [memberNames]), h.2 _ (by simp [memberNames]),
            h.2 _ (by simp [memberNames]), h.2 _ (by simp [memberNames]),
            h.2 _ (by simp [memberNames]), h.2 _ (by simp [memberNames]),
            h.2 _ (by simp [memberNames]), h.2 _ (by simp [memberNames])⟩
  simp only [read?, hf, hkind, h, Fields.withDefault_eq hid, Fields.required_eq htenant,
    Fields.required_eq hcollection, Fields.withDefault_eq hname, Fields.required_eq hto,
    Fields.required_eq hlevel, Fields.withDefault_eq hactive, Fields.withDefault_eq htime,
    text?_string, bool?_bool, Id.read?_toJson, Principal.read?_toJson, AccessLevel.read?_toJson,
    Option.bind_eq_bind, Option.bind_some, Option.pure_def]

end RecordAccess
