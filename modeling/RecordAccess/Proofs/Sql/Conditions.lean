import RecordAccess.Proofs.Sql.Tokens

/-!
# Reading SQL conditions

The grammar of boolean terms: comparisons of a column with placeholders, `FALSE`, parentheses, and
conjunctions that bind tighter than disjunctions.  A reader takes a condition off the front of some
tokens; `Sql.term?`, `Sql.conjunction?` and `Sql.condition?` read whole texts.

What a reader takes does not depend on what follows (`Sql.term_extends`).  So a text that reads as
one term is self-contained: behind any conjunction and `AND` it reads as one more conjunct
(`Sql.condition?_and`).
-/

namespace RecordAccess.Sql

/-- A condition on a row. -/
inductive Condition
  | falsity
  | equal (column : String) (placeholder : ℕ)
  | isIn (column : String) (placeholders : List ℕ)
  | and (a b : Condition)
  | or (a b : Condition)

/-- The placeholders of a condition, from left to right. -/
def Condition.placeholders : Condition → List ℕ
  | .falsity => []
  | .equal _ n => [n]
  | .isIn _ ns => ns
  | .and a b => a.placeholders ++ b.placeholders
  | .or a b => a.placeholders ++ b.placeholders

/-! ### Readers -/

/-- Takes something off the front of some tokens. -/
abbrev Reader (α : Type) := List Token → Option (α × List Token)

/-- The placeholders up to the end of a list, which has at least one. -/
def listed : Reader (List ℕ)
  | .placeholder n :: .closed :: rest => some ([n], rest)
  | .placeholder n :: .comma :: rest => do
    let (ns, rest) ← listed rest
    pure (n :: ns, rest)
  | _ => none

/-- Goes on with a condition for as long as a sign and an operand follow; at most a number of
times. -/
def goOn (sign : Token) (join : Condition → Condition → Condition) (operand : Reader Condition) :
    ℕ → Condition → Reader Condition
  | _, c, [] => some (c, [])
  | 0, c, t :: ts => if t = sign then none else some (c, t :: ts)
  | n + 1, c, t :: ts =>
    if t = sign then do
      let (d, rest) ← operand ts
      goOn sign join operand n (join c d) rest
    else some (c, t :: ts)

/-- Operands with a sign between them, joined from the left. -/
def sequence (sign : Token) (join : Condition → Condition → Condition)
    (operand : Reader Condition) : Reader Condition := fun ts => do
  let (c, rest) ← operand ts
  goOn sign join operand rest.length c rest

/-- A sequence of terms with `AND` between them. -/
def conjunction (term : Reader Condition) : Reader Condition := sequence .and .and term

/-- A sequence of conjunctions with `OR` between them. -/
def disjunction (term : Reader Condition) : Reader Condition :=
  sequence .or .or (conjunction term)

/-- A term with parentheses in it up to a depth. -/
def term : ℕ → Reader Condition
  | 0, _ => none
  | _ + 1, .falsity :: rest => some (.falsity, rest)
  | _ + 1, .name column :: .equals :: .placeholder n :: rest => some (.equal column n, rest)
  | _ + 1, .name column :: .isIn :: .opened :: rest => do
    let (ns, rest) ← listed rest
    pure (.isIn column ns, rest)
  | n + 1, .opened :: rest => do
    match ← disjunction (term n) rest with
    | (c, .closed :: rest) => pure (c, rest)
    | _ => none
  | _, _ => none

/-- What a reader takes that takes a whole text; no term is inside more parentheses than there are
tokens. -/
def whole (reader : ℕ → Reader Condition) (text : String) : Option Condition :=
  match reader ((tokens text).length + 1) (tokens text) with
  | some (c, []) => some c
  | _ => none

/-- Reads a text as one term. -/
def term? : String → Option Condition := whole term

/-- Reads a text as a conjunction. -/
def conjunction? : String → Option Condition := whole fun n => conjunction (term n)

/-- Reads a text as a condition. -/
def condition? : String → Option Condition := whole fun n => disjunction (term n)

/-! ### What readers take -/

/-- The first of some tokens, if there are any, has a property. -/
def Before (p : Token → Prop) (ts : List Token) : Prop := ∀ t ∈ ts.head?, p t

@[simp] theorem before_nil (p : Token → Prop) : Before p [] := by simp [Before]

@[simp] theorem before_cons (p : Token → Prop) (t : Token) (ts : List Token) :
    Before p (t :: ts) ↔ p t := by
  simp [Before]

theorem Before.append {p : Token → Prop} {ts us : List Token} (hts : Before p ts)
    (hus : Before p us) : Before p (ts ++ us) := by
  cases ts with
  | nil => exact hus
  | cons t ts => simpa using hts

/-- What the first reader takes, the second takes as well, in front of anything that it may stop
before. -/
def Extends {α : Type} (r r' : Reader α) (stop : Token → Prop) : Prop :=
  ∀ ts a rest, r ts = some (a, rest) → ∃ used, ts = used ++ rest ∧ .stray ∉ used ∧
    ∀ more, Before stop more → r' (used ++ more) = some (a, more)

theorem listed_extends (stop : Token → Prop) : Extends listed listed stop := by
  intro ts
  -- a list uses what it reads and looks at nothing beyond its closing parenthesis
  induction ts using listed.induct with
  | case1 n rest =>
    rintro a _ ⟨⟩
    exact ⟨[.placeholder n, .closed], rfl, by simp, fun _ _ => rfl⟩
  | case2 n rest ih =>
    intro a rest' h
    obtain ⟨⟨ns, _⟩, hlisted, heq⟩ := Option.bind_eq_some_iff.1 h
    cases heq
    obtain ⟨used, rfl, hstray, hused⟩ := ih _ _ hlisted
    refine ⟨.placeholder n :: .comma :: used, rfl, by simp [hstray], fun more hmore => ?_⟩
    simp [listed, hused more hmore]
  | case3 ts h1 h2 =>
    intro a rest h
    rw [listed.eq_def] at h
    split at h
    · exact absurd rfl (h1 _ _)
    · exact absurd rfl (h2 _ _)
    · cases h

variable {sign : Token} {join : Condition → Condition → Condition}
  {operand operand' : Reader Condition} {stop : Token → Prop}

theorem goOn_of_before {ts : List Token} (h : Before (· ≠ sign) ts) (n : ℕ) (c : Condition) :
    goOn sign join operand n c ts = some (c, ts) := by
  cases ts with
  | nil => cases n <;> rfl
  | cons t ts =>
    have ht : t ≠ sign := by simpa using h
    cases n <;> simp [goOn, ht]

theorem goOn_succ {ts : List Token} {c d : Condition} {rest : List Token}
    (h : operand ts = some (d, rest)) (n : ℕ) :
    goOn sign join operand (n + 1) c (sign :: ts) =
      goOn sign join operand n (join c d) rest := by
  simp [goOn, h]

/-- Going on either stops at once or takes a sign and an operand. -/
theorem goOn_cases {n : ℕ} {c d : Condition} {ts rest : List Token}
    (h : goOn sign join operand n c ts = some (d, rest)) :
    (Before (· ≠ sign) ts ∧ d = c ∧ rest = ts) ∨
      ∃ k e us mid, n = k + 1 ∧ ts = sign :: us ∧ operand us = some (e, mid) ∧
        goOn sign join operand k (join c e) mid = some (d, rest) := by
  by_cases hts : Before (· ≠ sign) ts
  · rw [goOn_of_before hts] at h
    cases h
    exact .inl ⟨hts, rfl, rfl⟩
  · right
    obtain ⟨us, rfl⟩ : ∃ us, ts = sign :: us := by
      cases ts with
      | nil => simp at hts
      | cons t us => exact ⟨us, by simpa using hts⟩
    cases n with
    | zero => simp [goOn] at h
    | succ k =>
      simp only [goOn, if_pos] at h
      obtain ⟨⟨e, mid⟩, hoperand, hrest⟩ := Option.bind_eq_some_iff.1 h
      exact ⟨k, e, us, mid, rfl, rfl, hoperand, hrest⟩

/-- Going on comes to the same place in front of anything else. -/
theorem goOn_run (hoperand : Extends operand operand' stop) (hsign : stop sign)
    (hstray : sign ≠ .stray) {n : ℕ} {c d : Condition} {ts rest : List Token}
    (h : goOn sign join operand n c ts = some (d, rest)) :
    Before (· ≠ sign) rest ∧ ∃ used k, ts = used ++ rest ∧ .stray ∉ used ∧ k ≤ used.length ∧
      Before stop used ∧ ∀ m more, Before stop more →
        goOn sign join operand' (m + k) c (used ++ more) =
          goOn sign join operand' m d more := by
  induction n generalizing c ts with
  | zero =>
    obtain ⟨hts, rfl, rfl⟩ | ⟨_, _, _, _, hn, -⟩ := goOn_cases h
    · exact ⟨hts, [], 0, rfl, by simp, Nat.le_refl 0, by simp, fun _ _ _ => rfl⟩
    · cases hn
  | succ n ih =>
    obtain ⟨hts, rfl, rfl⟩ | ⟨_, e, us, mid, hn, rfl, htaken, hgoOn⟩ := goOn_cases h
    · exact ⟨hts, [], 0, rfl, by simp, Nat.zero_le _, by simp, fun _ _ _ => rfl⟩
    · cases hn
      obtain ⟨taken, rfl, hclean, htakes⟩ := hoperand _ _ _ htaken
      obtain ⟨hrest, used, k, rfl, hused, hk, hbefore, hrun⟩ := ih hgoOn
      -- the operand taken here stops before what the induction goes on with, since that begins with
      -- the sign again or is what follows
      refine ⟨hrest, sign :: taken ++ used, k + 1, by simp, ?_, ?_, by simpa using hsign, ?_⟩
      · simp [hclean, hused, hstray.symm]
      · simp only [List.length_append, List.length_cons]
        omega
      · intro m more hmore
        have hnext := htakes (used ++ more) (hbefore.append hmore)
        rw [← Nat.add_assoc, List.append_assoc, List.cons_append, goOn_succ hnext,
          hrun m more hmore]

/-- A sequence comes to the same place in front of anything else. -/
theorem sequence_run (hoperand : Extends operand operand' stop) (hsign : stop sign)
    (hstray : sign ≠ .stray) {c : Condition} {ts rest : List Token}
    (h : sequence sign join operand ts = some (c, rest)) :
    Before (· ≠ sign) rest ∧ ∃ used, ts = used ++ rest ∧ .stray ∉ used ∧
      ∀ more, Before stop more → ∃ m, more.length ≤ m ∧
        sequence sign join operand' (used ++ more) = goOn sign join operand' m c more := by
  obtain ⟨⟨a, mid⟩, htaken, hgoOn⟩ := Option.bind_eq_some_iff.1 h
  obtain ⟨taken, rfl, hclean, htakes⟩ := hoperand _ _ _ htaken
  obtain ⟨hrest, used, k, rfl, hused, hk, hbefore, hrun⟩ := goOn_run hoperand hsign hstray hgoOn
  refine ⟨hrest, taken ++ used, by simp, by simp [hclean, hused], fun more hmore => ?_⟩
  -- there are at least as many times left as there are tokens that follow
  refine ⟨used.length - k + more.length, Nat.le_add_left _ _, ?_⟩
  have hnext := htakes (used ++ more) (hbefore.append hmore)
  have hlength : (used ++ more).length = used.length - k + more.length + k := by
    rw [List.length_append]
    omega
  simp only [sequence, List.append_assoc, hnext, Option.bind_eq_bind, Option.bind_some]
  rw [hlength, hrun _ _ hmore]

theorem sequence_extends (hoperand : Extends operand operand' stop) (hsign : stop sign)
    (hstray : sign ≠ .stray) :
    Extends (sequence sign join operand) (sequence sign join operand')
      fun t => stop t ∧ t ≠ sign := by
  intro ts c rest h
  obtain ⟨-, used, rfl, hused, hrun⟩ := sequence_run hoperand hsign hstray h
  refine ⟨used, rfl, hused, fun more hmore => ?_⟩
  obtain ⟨m, -, hm⟩ := hrun more fun t ht => (hmore t ht).1
  rw [hm, goOn_of_before fun t ht => (hmore t ht).2]

theorem disjunction_extends (hterm : Extends operand operand' fun _ => True) :
    Extends (disjunction operand) (disjunction operand')
      fun t => (True ∧ t ≠ .and) ∧ t ≠ .or :=
  sequence_extends (sequence_extends hterm trivial (by decide)) ⟨trivial, by decide⟩ (by decide)

/-- **A term is the same in front of anything**, and with more parentheses allowed. -/
theorem term_extends {n m : ℕ} (h : n ≤ m) : Extends (term n) (term m) fun _ => True := by
  induction n generalizing m with
  | zero =>
    intro ts c rest hterm
    simp [term] at hterm
  | succ n ih =>
    obtain ⟨m, rfl⟩ : ∃ k, m = k + 1 := ⟨m - 1, by omega⟩
    have hdisjunction := disjunction_extends (ih (Nat.le_of_succ_le_succ h))
    intro ts c rest hterm
    unfold term at hterm
    split at hterm
    · cases hterm
    · cases hterm
      exact ⟨[.falsity], rfl, by simp, fun _ _ => rfl⟩
    · rename_i column k rest' _
      cases hterm
      exact ⟨[.name column, .equals, .placeholder k], rfl, by simp, fun _ _ => rfl⟩
    · rename_i column rest' _
      obtain ⟨⟨ns, _⟩, hlisted, heq⟩ := Option.bind_eq_some_iff.1 hterm
      cases heq
      obtain ⟨used, rfl, hused, htakes⟩ := listed_extends (fun _ => True) _ _ _ hlisted
      refine ⟨.name column :: .isIn :: .opened :: used, rfl, by simp [hused], fun more hmore => ?_⟩
      simp [term, htakes more hmore]
    · rename_i k rest' hk
      cases hk
      obtain ⟨⟨d, after⟩, hinside, hclosed⟩ := Option.bind_eq_some_iff.1 hterm
      obtain ⟨used, rfl, hused, htakes⟩ := hdisjunction _ _ _ hinside
      split at hclosed
      · rename_i heq
        cases heq
        cases hclosed
        -- whatever follows, the condition inside stops before its closing parenthesis
        refine ⟨.opened :: used ++ [.closed], by simp, by simp [hused], fun more _ => ?_⟩
        have hnext := htakes (.closed :: more) (by simp)
        simp [term, hnext]
      · cases hclosed
    · cases hterm

theorem term_mono {n m : ℕ} (h : n ≤ m) {ts rest : List Token} {c : Condition}
    (hterm : term n ts = some (c, rest)) : term m ts = some (c, rest) := by
  obtain ⟨used, rfl, -, htakes⟩ := term_extends h _ _ _ hterm
  exact htakes rest fun _ _ => trivial

/-! ### Whole texts -/

theorem whole_eq_some {reader : ℕ → Reader Condition} {text : String} {c : Condition} :
    whole reader text = some c ↔
      reader ((tokens text).length + 1) (tokens text) = some (c, []) := by
  unfold whole
  split
  · rename_i h
    simp [h]
  · rename_i h
    constructor
    · intro hnone
      cases hnone
    · exact fun hsome => absurd hsome (h c)

theorem sequence_of_operand {ts rest : List Token} {c : Condition}
    (h : operand ts = some (c, rest)) (hrest : Before (· ≠ sign) rest) :
    sequence sign join operand ts = some (c, rest) := by
  simp [sequence, h, goOn_of_before hrest]

theorem sequence_snoc (hoperand : Extends operand operand' stop) (hsign : stop sign)
    (hstray : sign ≠ .stray) {c d : Condition} {ts us : List Token}
    (h : sequence sign join operand ts = some (c, [])) (hus : operand' us = some (d, [])) :
    sequence sign join operand' (ts ++ sign :: us) = some (join c d, []) := by
  obtain ⟨-, used, rfl, -, hrun⟩ := sequence_run hoperand hsign hstray h
  obtain ⟨m, hm, heq⟩ := hrun (sign :: us) (by simpa using hsign)
  obtain ⟨k, rfl⟩ : ∃ k, m = k + 1 := ⟨m - 1, by simp only [List.length_cons] at hm; omega⟩
  rw [List.append_nil, heq, goOn_succ hus, goOn_of_before (before_nil _)]

/-- **A text that reads as a term is one more conjunct** behind any conjunction and `AND`. -/
theorem condition?_and {conjuncts text : String} {c d : Condition}
    (hconjuncts : conjunction? conjuncts = some c) (hterm : term? text = some d) :
    condition? (conjuncts ++ " AND " ++ text) = some (.and c d) := by
  rw [conjunction?, whole_eq_some] at hconjuncts
  rw [term?, whole_eq_some] at hterm
  -- what was read whole has no stray character, so a blank may follow
  have hclean : .stray ∉ tokens conjuncts := by
    obtain ⟨used, hused, hstray, -⟩ := sequence_extends (term_extends (Nat.le_refl _)) trivial
      (by decide) _ _ _ hconjuncts
    simpa [hused] using hstray
  have htokens : tokens (conjuncts ++ " AND " ++ text) =
      tokens conjuncts ++ .and :: tokens text := by
    have hand : ∀ rest, scan .nothing ('A' :: 'N' :: 'D' :: ' ' :: rest) =
        .and :: scan .nothing rest := fun _ => rfl
    have hlist : (conjuncts ++ " AND " ++ text).toList =
        conjuncts.toList ++ ' ' :: 'A' :: 'N' :: 'D' :: ' ' :: text.toList := by
      simp
    rw [tokens, hlist, scan_append_blank hclean, hand]
    rfl
  rw [condition?, whole_eq_some, htokens]
  -- the whole has at least as many tokens as each part, so no part is cut short
  have hlength :
      (tokens conjuncts).length + 1 ≤ (tokens conjuncts ++ .and :: tokens text).length + 1 ∧
      (tokens text).length + 1 ≤ (tokens conjuncts ++ .and :: tokens text).length + 1 := by
    simp only [List.length_append, List.length_cons]
    omega
  have hboth := sequence_snoc (term_extends hlength.1) trivial (by decide) hconjuncts
    (term_mono hlength.2 hterm)
  exact sequence_of_operand hboth (before_nil _)

example : condition? "\x22t\x22 = $1 AND (\x22o\x22 = $2 OR \x22i\x22 IN ($3, $4))" =
    some (.and (.equal "t" 1) (.or (.equal "o" 2) (.isIn "i" [3, 4]))) := by
  rfl

end RecordAccess.Sql
