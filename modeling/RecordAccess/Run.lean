import RecordAccess.Event

/-!
# Runs

A `Run α` is what an operation did: its outcome, a value or an error, and the events it left behind,
in order.  A run that fails stops, and keeps the events so far.
-/

namespace RecordAccess

/-- The outcome of an operation and the events it left behind. -/
structure Run (α : Type) where
  outcome : Except AccessError α
  events : List Event

namespace Run

variable {α β : Type}

/-- The run that gives a value and does nothing. -/
def pure (a : α) : Run α := ⟨.ok a, []⟩

/-- Goes on with the value of a run, if it has one. -/
def bind (r : Run α) (f : α → Run β) : Run β :=
  match r.outcome with
  | .error e => ⟨.error e, r.events⟩
  | .ok a => ⟨(f a).outcome, r.events ++ (f a).events⟩

instance : Monad Run where
  pure := pure
  bind := bind

/-- The run that fails with an error made by somebody else. -/
def failed (e : AccessError) : Run α := ⟨.error e, []⟩

/-- The run that leaves one event behind. -/
def emit (e : Event) : Run Unit := ⟨.ok (), [e]⟩

/-- Increments a counter. -/
def count (c : Counter) : Run Unit := emit (.counted c)

/-- Logs a line. -/
def log (n : Notice) : Run Unit := emit (.logged n)

/-- The run that makes an error and fails with it; an error is counted when it is made. -/
def raise (e : AccessError) : Run α := ⟨.error e, [.counted (.errorRaised e.code)]⟩

/-- The value of a run, if it has one. -/
def value? (r : Run α) : Option α :=
  match r.outcome with
  | .ok a => some a
  | .error _ => none

/-- The questions a run asked the data providers, in order. -/
def calls (r : Run α) : List Query := r.events.filterMap Event.query?

/-! ### Laws -/

@[simp]
theorem pure_bind (a : α) (f : α → Run β) : (Pure.pure a : Run α) >>= f = f a := by
  show bind (pure a) f = f a
  simp [bind, pure]

@[simp]
theorem bind_pure (r : Run α) : (r >>= fun a => Pure.pure a) = r := by
  show bind r pure = r
  obtain ⟨outcome, events⟩ := r
  cases outcome <;> simp [bind, pure]

theorem bind_assoc {γ : Type} (r : Run α) (f : α → Run β) (g : β → Run γ) :
    r >>= f >>= g = r >>= fun a => f a >>= g := by
  show bind (bind r f) g = bind r fun a => bind (f a) g
  obtain ⟨outcome, events⟩ := r
  cases outcome with
  | error e => rfl
  | ok a =>
    simp only [bind]
    cases (f a).outcome <;> simp

theorem exists_ok_of_bind {r : Run α} {f : α → Run β} {b : β}
    (h : (r >>= f).outcome = .ok b) : ∃ a, r.outcome = .ok a ∧ (f a).outcome = .ok b := by
  obtain ⟨outcome, events⟩ := r
  cases outcome with
  | error e => cases h
  | ok a => exact ⟨a, rfl, h⟩

/-- Runs that ask nothing ask nothing one after the other. -/
theorem calls_bind_eq_nil {r : Run α} {f : α → Run β} (hr : r.calls = [])
    (hf : ∀ a, (f a).calls = []) : (r >>= f).calls = [] := by
  show (bind r f).calls = []
  obtain ⟨outcome, events⟩ := r
  cases outcome with
  | error e => exact hr
  | ok a =>
    have ha := hf a
    simp only [calls] at hr ha
    simp [calls, bind, hr, ha]

instance : LawfulMonad Run :=
  LawfulMonad.mk' Run (fun r => bind_pure r) (fun a f => pure_bind a f)
    (fun r f g => bind_assoc r f g)

end Run

end RecordAccess
