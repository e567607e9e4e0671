import Mathlib.Data.List.Nodup
import RecordAccess.Engine.Basic
import RecordAccess.Proofs.Runs
import RecordAccess.Store.Basic

/-!
# Stores that a history leads to

Tables that are replaced by key hold every key once, whatever the history
(`Store.consistent_ofHistory`).  Over such a store an engine is answered what the store knows,
unless the provider fails (`Store.ask_eq_ok`).
-/

namespace RecordAccess

theorem find?_key_eq_some {α κ : Type} {key : α → κ} {k : κ} {p : α → Bool} {l : List α}
    (hl : (l.map key).Nodup) (hp : ∀ a, p a = true ↔ key a = k) {a : α} :
    l.find? p = some a ↔ a ∈ l ∧ key a = k := by
  constructor
  · intro h
    exact ⟨List.mem_of_find?_eq_some h, (hp a).1 (List.find?_some h)⟩
  · rintro ⟨ha, hk⟩
    obtain ⟨b, hb⟩ : ∃ b, l.find? p = some b := by
      rw [← Option.isSome_iff_exists, List.find?_isSome]
      exact ⟨a, ha, (hp a).2 hk⟩
    have hkey : key b = key a := ((hp b).1 (List.find?_some hb)).trans hk.symm
    rw [hb, List.inj_on_of_nodup_map hl (List.mem_of_find?_eq_some hb) ha hkey]

theorem find?_filter_eq {α : Type} {p q r : α → Bool}
    (h : ∀ a, r a = true ↔ p a = true ∧ q a = true) (l : List α) :
    (l.filter p).find? q = l.find? r := by
  rw [List.find?_filter]
  congr 1
  funext a
  rw [Bool.eq_iff_iff, h, decide_eq_true_eq]

/-- An entry that is put in is found under its key, and under every other key is found what was. -/
theorem find?_put {α κ : Type} [DecidableEq κ] (key : α → κ) {k : κ} {p : α → Bool} {a : α}
    {l : List α} (hp : ∀ a, p a = true ↔ key a = k) :
    (a :: l.filter fun e => key e ≠ key a).find? p = if key a = k then some a else l.find? p := by
  by_cases ha : key a = k
  · rw [List.find?_cons_of_pos ((hp a).2 ha), if_pos ha]
  · rw [List.find?_cons_of_neg (mt (hp a).1 ha), if_neg ha]
    refine find?_filter_eq (fun e => ?_) l
    rw [hp, decide_eq_true_eq]
    exact ⟨fun he => ⟨he ▸ Ne.symm ha, he⟩, And.right⟩

theorem lookup_eq_map_find? {α β : Type} [BEq α] [LawfulBEq α] [DecidableEq α] (k : α)
    (l : List (α × β)) : l.lookup k = (l.find? fun e => e.1 = k).map (·.2) := by
  induction l with
  | nil => rfl
  | cons e l ih =>
    rw [List.lookup_cons, List.find?_cons, ih]
    by_cases he : e.1 = k
    · simp [he]
    · simp [he, beq_false_of_ne (Ne.symm he)]

namespace Store

/-! ### Consistency -/

/-- Every user is kept once. -/
structure Consistent (s : Store) : Prop where
  users : (s.users.map (·.id)).Nodup

theorem Consistent.apply {s : Store} (hs : s.Consistent) (m : Mutation) :
    (s.apply m).Consistent := by
  cases m with
  | user u =>
    refine ⟨?_⟩
    simp only [Store.apply, List.map_cons, List.nodup_cons]
    constructor
    · intro h
      obtain ⟨x, hx, hxu⟩ := List.mem_map.1 h
      have := (List.mem_filter.1 hx).2
      simp [hxu] at this
    · exact hs.users.sublist ((List.filter_sublist).map _)
  | _ => exact ⟨hs.users⟩

theorem Consistent.applyAll {s : Store} (hs : s.Consistent) (history : List Mutation) :
    (s.applyAll history).Consistent := by
  induction history generalizing s with
  | nil => exact hs
  | cons m history ih => exact ih (hs.apply m)

/-- **Every history leads to a consistent store.** -/
theorem consistent_ofHistory (history : List Mutation) : (ofHistory history).Consistent := by
  have h : empty.Consistent := ⟨List.nodup_nil⟩
  exact h.applyAll history

theorem Consistent.find_user {s : Store} (hs : s.Consistent) {id : UserId} {u : User} :
    s.answer (.user id) = some u ↔ u ∈ s.users ∧ u.id = id :=
  find?_key_eq_some hs.users fun _ => decide_eq_true_iff

theorem Consistent.any_user {s : Store} (hs : s.Consistent) {id : UserId} {p : User → Bool} :
    (s.answer (.user id)).any p = true ↔ ∃ u ∈ s.users, u.id = id ∧ p u = true := by
  rw [Option.any_eq_true]
  constructor
  · rintro ⟨u, hu, hpu⟩
    obtain ⟨hmem, hid⟩ := hs.find_user.1 hu
    exact ⟨u, hmem, hid, hpu⟩
  · rintro ⟨u, hmem, hid, hpu⟩
    exact ⟨u, hs.find_user.2 ⟨hmem, hid⟩, hpu⟩

/-! ### Shares that a store knows -/

section Shares

variable {s : Store} {collection : CollectionId} {record : RecordId} {share : RecordShare}

theorem mem_directShares {user : UserId} :
    share ∈ s.answer (.directShares collection record user) ↔
      share ∈ s.shares ∧ share.collection = collection ∧ share.record = record ∧
        share.sharedWith = .user user := by
  simp only [answer, List.mem_filter, Bool.and_eq_true, decide_eq_true_eq, and_assoc]

theorem mem_groupShares {groups : List GroupId} :
    share ∈ s.answer (.groupShares collection record groups) ↔
      share ∈ s.shares ∧ share.collection = collection ∧ share.record = record ∧
        ∃ g ∈ groups, share.sharedWith = .group g := by
  simp only [answer, List.mem_filter, Bool.and_eq_true, decide_eq_true_eq, and_assoc]
  cases share.sharedWith <;> simp

theorem groupShares_eq_nil {groups : List GroupId} (h : groups = []) :
    s.answer (.groupShares collection record (sortedGroups groups)) = [] := by
  subst h
  refine List.eq_nil_iff_forall_not_mem.2 fun share hshare => ?_
  obtain ⟨-, -, -, g, hg, -⟩ := mem_groupShares.1 hshare
  cases hg

theorem mem_collectionShares {tenant : TenantId} :
    share ∈ s.answer (.collectionShares tenant collection) ↔
      share ∈ s.shares ∧ share.collection = collection ∧ share.tenant = tenant := by
  simp only [answer, List.mem_filter, Bool.and_eq_true, decide_eq_true_eq]

end Shares

/-! ### Asking a store -/

theorem ask_eq_ok {s : Store} {c : Query} {a : c.Answer} :
    (s.ask c).outcome = .ok a ↔ c.provider ∉ s.failing ∧ s.answer c = a := by
  unfold ask
  split
  · rename_i h
    have h : c.provider ∈ s.failing := by simpa using h
    simp [Run.raise, h]
  · rename_i h
    have h : c.provider ∉ s.failing := by simpa using h
    simp [h]

theorem ask_of_failing {s : Store} {c : Query} (h : c.provider ∈ s.failing) :
    (s.ask c).outcome = .error (.providerUnavailable c.provider.name "injected failure") := by
  unfold ask
  rw [if_pos (List.contains_iff_mem.2 h)]
  rfl

/-- The engine over a store. -/
def engine (s : Store) (settings : EngineSettings) : Engine := ⟨s.providers, settings⟩

@[simp] theorem engine_ask_eq_ok {s : Store} {settings : EngineSettings} {c : Query}
    {a : c.Answer} :
    ((s.engine settings).ask c).outcome = .ok a ↔ c.provider ∉ s.failing ∧ s.answer c = a :=
  ask_eq_ok

theorem engine_ask {s : Store} {settings : EngineSettings} {c : Query}
    (h : c.provider ∉ s.failing) :
    ((s.engine settings).ask c).outcome = .ok (s.answer c) :=
  engine_ask_eq_ok.2 ⟨h, rfl⟩

end Store

/-! ### Engines that are answered from a store -/

/-- Some questions of an engine are answered with what a store knows, whatever the engine is
over. -/
def Engine.AnsweredFrom (e : Engine) (s : Store) (p : Query → Prop) : Prop :=
  ∀ c, p c → (e.ask c).outcome = .ok (s.answer c)

theorem Engine.AnsweredFrom.mono {e : Engine} {s : Store} {p q : Query → Prop}
    (h : e.AnsweredFrom s p) (hq : ∀ c, q c → p c) : e.AnsweredFrom s q :=
  fun c hc => h c (hq c hc)

theorem Store.answeredFrom_engine {s : Store} {p : Query → Prop} (settings : EngineSettings)
    (hp : ∀ c, p c → c.provider ∉ s.failing) : (s.engine settings).AnsweredFrom s p :=
  fun c hc => Store.engine_ask (hp c hc)

end RecordAccess
