import RecordAccess.Proofs.Documents
import RecordAccess.Proofs.Json.Printing
import RecordAccess.Store.Load

/-!
# Snapshots read back

A snapshot that is written as JSON, on one line or on many, is read back as it was
(`Snapshot.survives_serialization`), whatever stamps it is read with.  It has to be one that a
document can hold (`Snapshot.Storable`): times are in years of four digits, and criteria have no
doubles and are not nested too deep.  That is not enough (`Snapshot.storable_snapshots_change`): an
object in criteria must not begin with the reserved name, and only a leap second may go on past its
end (`Snapshot.Lasting`).

The result holds for every library of documents, values and moments that keeps the promises of
`Json.LawfulDocument`, `Json.LawfulTextForm` and `Timestamp.LawfulTextForm`.
-/

namespace RecordAccess

/-! ### Numbers in models -/

theorem Json.integral_memberIfSome {α : Type} {name : String} {write : α → Json}
    (hwrite : ∀ x, (write x).Integral) (a : Option α) :
    ∀ m ∈ memberIfSome name write a, m.2.Integral := by
  intro m hm
  cases a with
  | none => cases hm
  | some x =>
    rw [memberIfSome, List.mem_singleton] at hm
    rw [hm]
    exact hwrite x

theorem ObjectPermission.integral_toMembers (p : ObjectPermission) :
    ∀ m ∈ p.toMembers, m.2.Integral := by
  simp [toMembers]

theorem PermissionEntry.integral_toJson (p : PermissionEntry) : p.toJson.Integral := by
  refine .object ?_
  simp only [List.forall_mem_cons]
  exact ⟨.string _, .string _, p.permission.integral_toMembers⟩

theorem OrgWideDefault.integral_toJson (o : OrgWideDefault) : o.toJson.Integral := by
  simp [toJson, Id.toJson, DefaultAccess.toJson]

theorem User.integral_toJson (u : User) : u.toJson.Integral := by
  have hid : ∀ {kind : IdKind} (i : Id kind), i.toJson.Integral := fun i => .string _
  refine .object ?_
  simp only [List.cons_append, List.forall_mem_cons, List.forall_mem_append]
  exact ⟨.string _, ⟨Json.integral_memberIfSome hid _, Json.integral_memberIfSome hid _⟩,
    Json.integral_memberIfSome hid _⟩

theorem Membership.integral_toJson (m : Membership) : m.toJson.Integral := by
  simp [toJson, Id.toJson, MemberType.toJson]

theorem RuleKind.integral_toMembers {k : RuleKind}
    (h : ∀ c, k = .criteriaBased c → c.Integral) : ∀ m ∈ k.toMembers, m.2.Integral := by
  cases k with
  | ownerBased p => simp [toMembers, Principal.toJson, partsJson]
  | criteriaBased c => simp [toMembers, h c rfl]

theorem RecordShare.integral_toJson [Timestamp.TextForm] (s : RecordShare) : s.toJson.Integral := by
  refine .object ?_
  simp only [List.forall_mem_append]
  refine ⟨⟨?_, Json.integral_memberIfSome .string _⟩, ?_⟩
  · simp [Id.toJson, ShareSubject.toJson, partsJson, AccessLevel.toJson]
  · simp [Timestamp.toJson]

theorem SharingRule.integral_toJson [Timestamp.TextForm] {r : SharingRule}
    (h : ∀ c, r.kind = .criteriaBased c → c.Integral) : r.toJson.Integral := by
  refine .object ?_
  simp only [List.forall_mem_append]
  refine ⟨⟨?_, RuleKind.integral_toMembers h⟩, ?_⟩
  · simp [Id.toJson]
  · simp [Principal.toJson, partsJson, AccessLevel.toJson, Timestamp.toJson]

namespace Snapshot

section TextForms

variable [Timestamp.TextForm]

/-- What a document is meant to hold of a snapshot. -/
structure Storable (s : Snapshot) : Prop where
  /-- A year outside four digits is written with a sign. -/
  rule_year : ∀ r ∈ s.rules, 0 ≤ r.createdAt.year ∧ r.createdAt.year ≤ 9999
  share_year : ∀ r ∈ s.shares, 0 ≤ r.createdAt.year ∧ r.createdAt.year ≤ 9999
  /-- Criteria are what some document means, its members sorted and none there twice. -/
  canonical : ∀ r ∈ s.rules, ∀ c, r.kind = .criteriaBased c → ∃ d : Json, d.canonical = c
  integral : ∀ r ∈ s.rules, ∀ c, r.kind = .criteriaBased c → c.Integral
  /-- No deeper document is read. -/
  depth : s.toJson.depth ≤ Json.maxDepth

/-- What a document does hold of a snapshot. -/
structure Lasting (s : Snapshot) : Prop extends s.Storable where
  /-- What lies beyond any other second is written as a part of the next one. -/
  rule_leap : ∀ r ∈ s.rules, 1000000000 ≤ r.createdAt.nano → r.createdAt.second = 59
  share_leap : ∀ r ∈ s.shares, 1000000000 ≤ r.createdAt.nano → r.createdAt.second = 59
  /-- An object that begins with the reserved name stands for another value. -/
  plain : ∀ r ∈ s.rules, ∀ c, r.kind = .criteriaBased c → c.Plain

variable {s : Snapshot}

theorem Storable.integral_toJson (h : s.Storable) : s.toJson.Integral := by
  have hdefault : ((s.defaultPermission.map ObjectPermission.toJson).getD .null).Integral := by
    cases s.defaultPermission with
    | none => exact .null
    | some p => exact .object p.integral_toMembers
  have hrules : ∀ r ∈ s.rules, r.toJson.Integral := fun r hr => r.integral_toJson (h.integral r hr)
  refine .object ?_
  simp only [List.forall_mem_cons, Json.integral_array_iff, List.forall_mem_map]
  exact ⟨hdefault, fun p _ => p.integral_toJson, fun o _ => o.integral_toJson, hrules,
    fun r _ => r.integral_toJson, fun u _ => u.integral_toJson, fun m _ => m.integral_toJson,
    by simp⟩

variable [Document Json]

/-! ### From documents -/

section Documents

open Json.LawfulDocument

variable [Json.LawfulDocument]

/-- A snapshot is read back with what its rules and its shares are read back as. -/
theorem read?_toJson (stamps : Stamps) (rule : SharingRule → SharingRule)
    (share : RecordShare → RecordShare)
    (hrule : ∀ r ∈ s.rules, ∀ i, SharingRule.read? (stamps.rule i) r.toJson = some (rule r))
    (hshare : ∀ r ∈ s.shares, ∀ i, RecordShare.read? (stamps.share i) r.toJson = some (share r)) :
    read? stamps s.toJson =
      some { s with rules := s.rules.map rule, shares := s.shares.map share } := by
  -- every member has its own name, and stands for one part of the snapshot
  obtain ⟨f, hf, hdefault, hpermissions, hdefaults, hrules, hshares, husers, hmemberships⟩ : ∃ f,
      Document.fields? memberNames s.toJson = some f ∧
      f "defaultPermission" = some ((s.defaultPermission.map ObjectPermission.toJson).getD .null) ∧
      f "permissions" = some (.array (s.permissions.map PermissionEntry.toJson)) ∧
      f "orgWideDefaults" = some (.array (s.orgWideDefaults.map OrgWideDefault.toJson)) ∧
      f "sharingRules" = some (.array (s.rules.map SharingRule.toJson)) ∧
      f "recordShares" = some (.array (s.shares.map RecordShare.toJson)) ∧
      f "users" = some (.array (s.users.map User.toJson)) ∧
      f "memberships" = some (.array (s.memberships.map Membership.toJson)) :=
    (fields?_object _ _ (by simp)).imp fun f h =>
      ⟨h.1, h.2 _ (by simp [memberNames]), h.2 _ (by simp [memberNames]),
        h.2 _ (by simp [memberNames]), h.2 _ (by simp [memberNames]), h.2 _ (by simp [memberNames]),
        h.2 _ (by simp [memberNames]), h.2 _ (by simp [memberNames])⟩
  -- a missing default permission is written as null, and null is read as none
  have hoptional : f.optional "defaultPermission" ObjectPermission.read? =
      some s.defaultPermission := by
    rw [Fields.optional, hdefault]
    cases s.defaultPermission with
    | none => simp [isNull_iff]
    | some p =>
      have hnull : Document.isNull p.toJson = false := Json.isNull_object _
      simp [hnull, p.read?_toJson]
  simp only [read?, hf, hoptional, Fields.withDefault_eq hpermissions,
    Fields.withDefault_eq hdefaults, Fields.withDefault_eq hrules, Fields.withDefault_eq hshares,
    Fields.withDefault_eq husers, Fields.withDefault_eq hmemberships,
    Json.listOf_map fun p _ => PermissionEntry.read?_toJson p,
    Json.listOf_map fun o _ => OrgWideDefault.read?_toJson o,
    Json.listOf_map fun u _ => User.read?_toJson u,
    Json.listOf_map fun m _ => Membership.read?_toJson m,
    Json.listOfIndexed_map hrule, Json.listOfIndexed_map hshare, Option.bind_eq_bind,
    Option.bind_some, Option.pure_def]

theorem Lasting.read?_toJson [Timestamp.LawfulTextForm] (h : s.Lasting) (stamps : Stamps) :
    read? stamps s.toJson = some s := by
  have hrule : ∀ r ∈ s.rules, ∀ i, SharingRule.read? (stamps.rule i) r.toJson = some r := by
    intro r hr i
    obtain ⟨hfirst, hlast⟩ := h.rule_year r hr
    have htime := Timestamp.ofDocument?_toJson ⟨hfirst, hlast, h.rule_leap r hr⟩
    have hkind : RuleKind.readIn? true (.object r.kind.toMembers) = some r.kind := by
      cases hk : r.kind with
      | ownerBased p => exact RuleKind.readIn?_ownerBased true p
      | criteriaBased c =>
        -- criteria are in canonical form already, so they stand for themselves
        obtain ⟨d, hd⟩ := h.canonical r hr c hk
        have hcanonical : c.canonical = c := by rw [← hd, d.canonical_canonical]
        have hcriteria := Json.LawfulDocument.untyped?_eq (h.plain r hr c hk)
        rw [hcanonical] at hcriteria
        exact RuleKind.readIn?_criteriaBased true hcriteria
    exact SharingRule.read?_toJson (stamps.rule i) hkind htime
  have hshare : ∀ r ∈ s.shares, ∀ i, RecordShare.read? (stamps.share i) r.toJson = some r := by
    intro r hr i
    obtain ⟨hfirst, hlast⟩ := h.share_year r hr
    exact RecordShare.read?_toJson (stamps.share i)
      (Timestamp.ofDocument?_toJson ⟨hfirst, hlast, h.share_leap r hr⟩)
  rw [Snapshot.read?_toJson stamps id id hrule hshare, List.map_id, List.map_id]

end Documents

/-! ### From texts -/

variable [Json.TextForm] [Json.LawfulTextForm]

theorem Storable.ofJson_eq (h : s.Storable) {stamps : Stamps} {loaded : Snapshot}
    (hread : read? stamps s.toJson = some loaded) :
    ∀ text ∈ [Json.TextForm.compact s.toJson, Json.TextForm.pretty s.toJson],
      ofJson stamps text = .ok loaded := by
  intro text htext
  have hvalue : Json.TextForm.read? text = some s.toJson := by
    simp only [List.mem_cons, List.not_mem_nil, or_false] at htext
    rcases htext with rfl | rfl
    · exact Json.LawfulTextForm.read?_compact h.integral_toJson h.depth
    · exact Json.LawfulTextForm.read?_pretty h.integral_toJson h.depth
  rw [ofJson, hvalue, Option.bind_some, hread]

/-- **Snapshots survive serialization.**  A snapshot is read back from its text, on one line or on
many, and a store that holds what was read answers every question as one that holds the snapshot. -/
theorem survives_serialization [Json.LawfulDocument] [Timestamp.LawfulTextForm]
    (stamps : Stamps) (s : Snapshot) (h : s.Lasting) :
    ∀ text ∈ [Json.TextForm.compact s.toJson, Json.TextForm.pretty s.toJson], ∃ loaded,
      ofJson stamps text = .ok loaded ∧ loaded = s ∧
        ∀ c, loaded.toStore.providers.ask c = s.toStore.providers.ask c :=
  fun text htext =>
    ⟨s, h.ofJson_eq (h.read?_toJson stamps) text htext, rfl, fun _ => rfl⟩

end TextForms

/-- The first moment of the years with four digits. -/
def firstMoment : Timestamp := ⟨0, 1, 1, 0, 0, 0, 0, by decide⟩

/-- The last moment of the years with four digits, in a leap second. -/
def lastMoment : Timestamp := ⟨9999, 12, 31, 23, 59, 59, 1999999999, by decide⟩

/-- Criteria with the greatest integers and names that need escapes. -/
def oddCriteria : Json :=
  .object [("\x22", .array [.null, .bool true, .number (.integer (-9223372036854775808))]),
    ("ruleType",
      .object [("a\n", .string "\\\x00"), ("é", .number (.integer 18446744073709551615))])]

/-- A snapshot with a rule of each kind, options left out, and names that need escapes. -/
def oddSnapshot : Snapshot where
  defaultPermission := some .readOnly
  permissions := [⟨⟨"ann\t"⟩, ⟨"deals"⟩, .crud⟩]
  orgWideDefaults := [⟨⟨"t"⟩, ⟨"deals"⟩, .privateAccess⟩]
  rules :=
    [⟨"r1", ⟨"t"⟩, ⟨"deals"⟩, "", .ownerBased (.queue ⟨"q"⟩), .role ⟨"rep"⟩, .read, false,
      firstMoment⟩,
      ⟨"r2", ⟨"t"⟩, ⟨"deals"⟩, "criteria", .criteriaBased oddCriteria, .group ⟨"g"⟩, .readWrite,
        true, lastMoment⟩]
  shares := [⟨"s1", ⟨"t"⟩, ⟨"deals"⟩, ⟨"d1"⟩, .group ⟨"g"⟩, .read, none, lastMoment⟩]
  users := [⟨⟨"ann\t"⟩, some ⟨"t"⟩, none, some ⟨"rep"⟩⟩]
  memberships := [.nested ⟨"g"⟩ ⟨"q"⟩]

theorem oddSnapshot_lasting : oddSnapshot.Lasting where
  rule_year := by simp [oddSnapshot, firstMoment, lastMoment]
  share_year := by simp [oddSnapshot, lastMoment]
  rule_leap := by simp [oddSnapshot, firstMoment, lastMoment]
  share_leap := by simp [oddSnapshot, lastMoment]
  plain := by simp [oddSnapshot, oddCriteria, Json.reservedName]
  canonical := by
    have hcriteria : oddCriteria.canonical = oddCriteria := rfl
    have hsome : ∃ d : Json, d.canonical = oddCriteria := ⟨oddCriteria, hcriteria⟩
    simp [oddSnapshot, hsome]
  integral := by
    have hlow : (Json.number (.integer (-9223372036854775808))).Integral :=
      .integer (by decide) (by decide)
    have hhigh : (Json.number (.integer 18446744073709551615)).Integral :=
      .integer (by decide) (by decide)
    simp [oddSnapshot, oddCriteria, hlow, hhigh]
  depth := by decide

/-- Ids and times that a document is read with where it has none. -/
def otherStamps : Stamps :=
  ⟨fun _ => ⟨"other rule", lastMoment⟩, fun _ => ⟨"other share", firstMoment⟩⟩

/-- The snapshot is read back, with other ids and times at hand. -/
theorem oddSnapshot_survives :
    oddSnapshot.Lasting ∧ ofJson otherStamps oddSnapshot.toJson.compact = .ok oddSnapshot := by
  obtain ⟨loaded, hloaded, rfl, -⟩ :=
    survives_serialization otherStamps oddSnapshot oddSnapshot_lasting _ List.mem_cons_self
  exact ⟨oddSnapshot_lasting, hloaded⟩

/-! ### What does not survive -/

/-- A snapshot with one rule, of given criteria and from a given moment. -/
def ofCriteria (c : Json) (time : Timestamp) : Snapshot where
  rules := [⟨"r", ⟨"t"⟩, ⟨"deals"⟩, "", .criteriaBased c, .user ⟨"ann"⟩, .read, true, time⟩]

variable {c c' : Json} {time time' : Timestamp}

theorem read?_ofCriteria (stamps : Stamps) (hcriteria : Document.untyped? c = some c')
    (htime : Timestamp.ofDocument? time.toJson = some time') :
    read? stamps (ofCriteria c time).toJson = some (ofCriteria c' time') := by
  refine read?_toJson stamps (fun r => { r with kind := .criteriaBased c', createdAt := time' }) id
    ?_ (by simp [ofCriteria])
  intro r hr i
  obtain rfl := List.mem_singleton.1 hr
  exact SharingRule.read?_toJson _ (RuleKind.readIn?_criteriaBased true hcriteria) htime

theorem storable_ofCriteria (hyear : 0 ≤ time.year ∧ time.year ≤ 9999)
    (hcanonical : c.canonical = c) (hintegral : c.Integral)
    (hdepth : (ofCriteria c time).toJson.depth ≤ Json.maxDepth) : (ofCriteria c time).Storable where
  rule_year := by simpa [ofCriteria] using hyear
  share_year := by simp [ofCriteria]
  canonical := by
    have hsome : ∃ d : Json, d.canonical = c := ⟨c, hcanonical⟩
    simp [ofCriteria, hsome]
  integral := by simp [ofCriteria, hintegral]
  depth := hdepth

/-- Criteria that begin with the reserved name. -/
def holdingCriteria : Json := .object [(Json.reservedName, .string "1")]

/-- Half a second past the end of a second that no leap second follows. -/
def lateMoment : Timestamp := ⟨2024, 1, 1, 12, 0, 30, 1500000000, by decide⟩

/-- The same half a second in the next second. -/
def nextMoment : Timestamp := ⟨2024, 1, 1, 12, 0, 31, 500000000, by decide⟩

/-- **Not every snapshot survives.**  Criteria that begin with the reserved name come back as the
document that they hold, and a time past the end of a second comes back in the next one. -/
theorem storable_snapshots_change :
    ((ofCriteria holdingCriteria nextMoment).Storable ∧
      ofJson otherStamps (ofCriteria holdingCriteria nextMoment).toJson.compact =
        .ok (ofCriteria (.nat 1) nextMoment) ∧
      ofCriteria (.nat 1) nextMoment ≠ ofCriteria holdingCriteria nextMoment) ∧
    ((ofCriteria .null lateMoment).Storable ∧
      ofJson otherStamps (ofCriteria .null lateMoment).toJson.compact =
        .ok (ofCriteria .null nextMoment) ∧
      ofCriteria .null nextMoment ≠ ofCriteria .null lateMoment) := by
  have hholding : (ofCriteria holdingCriteria nextMoment).Storable :=
    storable_ofCriteria (by decide) rfl (by simp [holdingCriteria]) (by decide)
  have hlate : (ofCriteria .null lateMoment).Storable :=
    storable_ofCriteria (by decide) rfl .null (by decide)
  have hone : Json.read? "1" = some (.nat 1) :=
    Json.read?_compact (j := .nat 1) (.integer (by decide) (by decide)) (by decide)
  have hcriteria : Document.untyped? holdingCriteria = some (.nat 1) :=
    Json.untyped?_reserved hone (.number _)
  have hnext : Timestamp.ofDocument? nextMoment.toJson = some nextMoment :=
    Timestamp.ofDocument?_toJson ⟨by decide, by decide, by decide⟩
  -- both moments are written as one text
  have hmoved : Timestamp.ofDocument? lateMoment.toJson = some nextMoment := hnext
  refine ⟨⟨hholding, ?_, ?_⟩, hlate, ?_, ?_⟩
  · exact hholding.ofJson_eq (read?_ofCriteria _ hcriteria hnext) _ List.mem_cons_self
  · simp [ofCriteria, holdingCriteria, Json.nat]
  · exact hlate.ofJson_eq (read?_ofCriteria _ (Json.untyped?_eq .null) hmoved) _ List.mem_cons_self
  · simp [ofCriteria, nextMoment, lateMoment]

end Snapshot
end RecordAccess
