import RecordAccess.Run

/-!
# Outcomes and calls of composed runs

What a composed run gives, and which questions it asks, in terms of its parts.
-/

namespace RecordAccess.Run

variable {α β : Type}

/-! ### Outcomes -/

@[simp] theorem outcome_pure (a : α) : (Pure.pure a : Run α).outcome = .ok a := rfl

@[simp] theorem outcome_emit (e : Event) : (emit e).outcome = .ok () := rfl

@[simp] theorem outcome_count (c : Counter) : (count c).outcome = .ok () := rfl

theorem outcome_bind_of_ok {r : Run α} {a : α} (h : r.outcome = .ok a) (f : α → Run β) :
    (r >>= f).outcome = (f a).outcome := by
  obtain ⟨outcome, events⟩ := r
  cases h
  rfl

theorem outcome_bind_of_error {r : Run α} {e : AccessError} (h : r.outcome = .error e)
    (f : α → Run β) : (r >>= f).outcome = .error e := by
  obtain ⟨outcome, events⟩ := r
  cases h
  rfl

theorem outcome_bind_eq_ok {r : Run α} {f : α → Run β} {b : β} :
    (r >>= f).outcome = .ok b ↔ ∃ a, r.outcome = .ok a ∧ (f a).outcome = .ok b := by
  constructor
  · exact exists_ok_of_bind
  · rintro ⟨a, ha, hb⟩
    rw [outcome_bind_of_ok ha, hb]

theorem outcome_bind_self {r : Run α} {f : α → Run α} (h : ∀ a, (f a).outcome = .ok a) :
    (r >>= f).outcome = r.outcome := by
  cases hr : r.outcome with
  | ok a => rw [outcome_bind_of_ok hr, h]
  | error e => exact outcome_bind_of_error hr f

theorem bind_congr_of_ok {r : Run α} {f g : α → Run β} (h : ∀ a, r.outcome = .ok a → f a = g a) :
    r >>= f = r >>= g := by
  obtain ⟨outcome, events⟩ := r
  cases outcome with
  | error e => rfl
  | ok a =>
    show bind _ f = bind _ g
    simp only [bind, h a rfl]

/-! ### Events -/

theorem events_bind_of_ok {r : Run α} {a : α} (h : r.outcome = .ok a) (f : α → Run β) :
    (r >>= f).events = r.events ++ (f a).events := by
  obtain ⟨outcome, events⟩ := r
  cases h
  rfl

theorem events_bind_of_error {r : Run α} {e : AccessError} (h : r.outcome = .error e)
    (f : α → Run β) : (r >>= f).events = r.events := by
  obtain ⟨outcome, events⟩ := r
  cases h
  rfl

/-! ### Calls -/

@[simp] theorem calls_pure (a : α) : (Pure.pure a : Run α).calls = [] := rfl

@[simp] theorem calls_count (c : Counter) : (count c).calls = [] := rfl

@[simp] theorem calls_log (n : Notice) : (log n).calls = [] := rfl

theorem calls_bind_of_ok {r : Run α} {a : α} (h : r.outcome = .ok a) (f : α → Run β) :
    (r >>= f).calls = r.calls ++ (f a).calls := by
  rw [calls, events_bind_of_ok h, List.filterMap_append]
  rfl

theorem calls_bind_of_error {r : Run α} {e : AccessError} (h : r.outcome = .error e)
    (f : α → Run β) : (r >>= f).calls = r.calls := by
  rw [calls, events_bind_of_error h, calls]

theorem exists_calls_bind (r : Run α) (f : α → Run β) :
    ∃ more, (r >>= f).calls = r.calls ++ more := by
  cases h : r.outcome with
  | ok a => exact ⟨_, calls_bind_of_ok h f⟩
  | error e => exact ⟨[], by rw [calls_bind_of_error h, List.append_nil]⟩

end RecordAccess.Run
