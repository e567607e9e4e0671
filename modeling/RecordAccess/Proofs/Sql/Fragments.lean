import Mathlib.Data.List.Range
import RecordAccess.Proofs.Predicates
import RecordAccess.Proofs.Sql.Conditions

/-!
# Rendered predicates mean what they match

Conditions are evaluated in three-valued logic: a comparison with an absent value is unknown, and so
may be what is made of it.  The text of a predicate reads as one term (`Sql.term?_chars`).  Its
placeholders are numbered from the first one without gaps (`Sql.placeholders_comparisons`), and it
is true of exactly the rows of matching records (`Sql.exists_comparison_iff`).
-/

namespace RecordAccess

namespace Sql

/-! ### Truth -/

/-- Whether two values are equal; unknown if either is absent. -/
def equal : Option String → Option String → Option Bool
  | some x, some y => some (x = y)
  | _, _ => none

/-- A conjunction of what may be unknown. -/
def both : Option Bool → Option Bool → Option Bool
  | some false, _ => some false
  | _, some false => some false
  | some true, some true => some true
  | _, _ => none

/-- A disjunction of what may be unknown. -/
def either : Option Bool → Option Bool → Option Bool
  | some true, _ => some true
  | _, some true => some true
  | some false, some false => some false
  | _, _ => none

/-- The truth of a condition on a row of columns, where values are bound to placeholders. -/
def Condition.eval (row : String → Option String) (binding : ℕ → Option String) :
    Condition → Option Bool
  | .falsity => some false
  | .equal column n => Sql.equal (row column) (binding n)
  | .isIn column ns =>
    (ns.map fun n => Sql.equal (row column) (binding n)).foldr either (some false)
  | .and a b => both (a.eval row binding) (b.eval row binding)
  | .or a b => either (a.eval row binding) (b.eval row binding)

theorem equal_eq_true {a b : Option String} :
    equal a b = some true ↔ ∃ x, a = some x ∧ b = some x := by
  cases a <;> cases b <;> simp [equal, eq_comm]

theorem either_eq_true {a b : Option Bool} :
    either a b = some true ↔ a = some true ∨ b = some true := by
  rcases a with _ | _ | _ <;> rcases b with _ | _ | _ <;> simp [either]

theorem foldr_either_eq_true {as : List (Option Bool)} :
    as.foldr either (some false) = some true ↔ some true ∈ as := by
  induction as with
  | nil => simp
  | cons a as ih => rw [List.foldr_cons, either_eq_true, ih, List.mem_cons, eq_comm]

/-! ### Comparisons -/

/-- The condition that a comparison renders. -/
def Comparison.condition (c : Comparison) : Condition :=
  match c.operator, c.placeholders with
  | .eq, [n] => .equal c.column n
  | _, ns => .isIn c.column ns

/-- The condition that a disjunction renders. -/
def Term.condition : Term → Condition
  | [] => .falsity
  | c :: cs => (cs.map Comparison.condition).foldl .or c.condition

namespace Comparison

variable {row : String → Option String} {binding : ℕ → Option String}

@[simp] theorem placeholders_condition (c : Comparison) :
    c.condition.placeholders = c.placeholders := by
  obtain ⟨column, operator, ns⟩ := c
  cases operator with
  | isIn => rfl
  | eq => rcases ns with _ | ⟨n, _ | ⟨m, ns⟩⟩ <;> rfl

theorem eval_condition_eq_true {c : Comparison} :
    c.condition.eval row binding = some true ↔
      ∃ n ∈ c.placeholders, ∃ x, row c.column = some x ∧ binding n = some x := by
  have hlist : (Condition.isIn c.column c.placeholders).eval row binding = some true ↔
      ∃ n ∈ c.placeholders, ∃ x, row c.column = some x ∧ binding n = some x := by
    rw [Condition.eval, foldr_either_eq_true, List.mem_map]
    simp only [equal_eq_true]
  obtain ⟨column, operator, ns⟩ := c
  cases operator with
  | isIn => exact hlist
  | eq =>
    rcases ns with _ | ⟨n, _ | ⟨m, ns⟩⟩
    · exact hlist
    · simp [condition, Condition.eval, equal_eq_true]
    · exact hlist

end Comparison

namespace Term

variable {row : String → Option String} {binding : ℕ → Option String}

theorem placeholders_foldl (a : Condition) (cs : List Condition) :
    (cs.foldl .or a).placeholders = a.placeholders ++ cs.flatMap (·.placeholders) := by
  induction cs generalizing a with
  | nil => simp
  | cons c cs ih => simp [ih, Condition.placeholders]

theorem eval_foldl_eq_true (a : Condition) (cs : List Condition) :
    (cs.foldl .or a).eval row binding = some true ↔
      a.eval row binding = some true ∨ ∃ c ∈ cs, c.eval row binding = some true := by
  induction cs generalizing a with
  | nil => simp
  | cons c cs ih => simp [ih, Condition.eval, either_eq_true, or_assoc]

@[simp] theorem placeholders_condition (t : Term) :
    t.condition.placeholders = t.flatMap (·.placeholders) := by
  cases t with
  | nil => rfl
  | cons c cs => simp [condition, placeholders_foldl, List.flatMap_map]

theorem eval_condition_eq_true {t : Term} :
    t.condition.eval row binding = some true ↔
      ∃ c ∈ t, c.condition.eval row binding = some true := by
  cases t with
  | nil => simp [condition, Condition.eval]
  | cons c cs => simp [condition, eval_foldl_eq_true]

end Term

/-! ### Reading what was rendered -/

theorem listed_joined (n : ℕ) (ns : List ℕ) (rest : List Token) :
    listed (joined .comma ((n :: ns).map fun k => [.placeholder k]) ++ .closed :: rest) =
      some (n :: ns, rest) := by
  induction ns generalizing n with
  | nil => rfl
  | cons k ns ih =>
    have hnext : listed (.placeholder n :: .comma ::
        (joined .comma ((k :: ns).map fun k => [.placeholder k]) ++ .closed :: rest)) =
        some (n :: k :: ns, rest) := by
      rw [listed, ih]
      rfl
    simpa [joined] using hnext

theorem Comparison.term_tokens {c : Comparison} (h : c.placeholders ≠ []) (depth : ℕ)
    (rest : List Token) : term (depth + 1) (c.tokens ++ rest) = some (c.condition, rest) := by
  obtain ⟨column, operator, ns⟩ := c
  obtain ⟨n, ns, rfl⟩ := List.exists_cons_of_ne_nil h
  have hlist : term (depth + 1) (.name column :: .isIn :: .opened ::
      (joined .comma ((n :: ns).map fun k => [.placeholder k]) ++ .closed :: rest)) =
      some (.isIn column (n :: ns), rest) := by
    rw [term, listed_joined]
    rfl
  cases operator with
  | isIn => simpa [Comparison.tokens, Comparison.condition] using hlist
  | eq =>
    cases ns with
    | nil => rfl
    | cons m ns => simpa [Comparison.tokens, Comparison.condition] using hlist

section Sequences

variable {α : Type} {sign : Token} {join : Condition → Condition → Condition}
  {operand : Reader Condition} {stop : Token → Prop} {tokens : α → List Token}
  {condition : α → Condition} {as : List α} {rest : List Token}

theorem before_flatMap (hsign : stop sign) (hstop : Before stop rest) (tss : List (List Token)) :
    Before stop (tss.flatMap (sign :: ·) ++ rest) := by
  cases tss with
  | nil => exact hstop
  | cons ts tss => simpa using hsign

theorem length_le_flatMap (sign : Token) (tss : List (List Token)) :
    tss.length ≤ (tss.flatMap (sign :: ·)).length := by
  induction tss with
  | nil => rfl
  | cons ts tss ih =>
    simp only [List.flatMap_cons, List.length_append, List.length_cons]
    omega

theorem goOn_joined (h : ∀ a ∈ as, ∀ more, Before stop more →
      operand (tokens a ++ more) = some (condition a, more))
    (hsign : stop sign) (hstop : Before stop rest) (hrest : Before (· ≠ sign) rest) {n : ℕ}
    (hn : as.length ≤ n) (c : Condition) :
    goOn sign join operand n c ((as.map tokens).flatMap (sign :: ·) ++ rest) =
      some ((as.map condition).foldl join c, rest) := by
  induction as generalizing n c with
  | nil => exact goOn_of_before hrest n c
  | cons a as ih =>
    obtain ⟨n, rfl⟩ : ∃ k, n = k + 1 := ⟨n - 1, by simp only [List.length_cons] at hn; omega⟩
    rw [List.map_cons, List.flatMap_cons, List.cons_append, List.cons_append, List.append_assoc,
      goOn_succ (h a List.mem_cons_self _ (before_flatMap hsign hstop _)),
      ih (fun b hb => h b (List.mem_cons_of_mem a hb)) (Nat.le_of_succ_le_succ hn)]
    rfl

theorem sequence_joined {a : α} (h : ∀ b ∈ a :: as, ∀ more, Before stop more →
      operand (tokens b ++ more) = some (condition b, more))
    (hsign : stop sign) (hstop : Before stop rest) (hrest : Before (· ≠ sign) rest) :
    sequence sign join operand (joined sign ((a :: as).map tokens) ++ rest) =
      some ((as.map condition).foldl join (condition a), rest) := by
  have hfirst := h a List.mem_cons_self _ (before_flatMap hsign hstop (as.map tokens))
  have hlength : as.length ≤ ((as.map tokens).flatMap (sign :: ·) ++ rest).length := by
    have hle := length_le_flatMap sign (as.map tokens)
    rw [List.length_map] at hle
    rw [List.length_append]
    omega
  simp only [sequence, joined, List.map_cons, List.append_assoc, hfirst, Option.bind_eq_bind,
    Option.bind_some]
  exact goOn_joined (fun b hb => h b (List.mem_cons_of_mem a hb)) hsign hstop hrest hlength _

end Sequences

/-- **A disjunction reads as its condition** whatever follows, if no comparison is empty. -/
theorem Term.term_tokens {t : Term} (h : ∀ c ∈ t, c.placeholders ≠ []) (depth : ℕ)
    (rest : List Token) : term (depth + 2) (t.tokens ++ rest) = some (t.condition, rest) := by
  -- nothing is `FALSE`, one comparison stands alone, more are put in parentheses
  rcases t with _ | ⟨c, _ | ⟨d, t⟩⟩
  · rfl
  · exact Comparison.term_tokens (h c List.mem_cons_self) _ rest
  · have hconjunction : ∀ a ∈ c :: d :: t, ∀ more, Before (· ≠ .and) more →
        conjunction (term (depth + 1)) (a.tokens ++ more) = some (a.condition, more) :=
      fun a ha more hmore => sequence_of_operand (Comparison.term_tokens (h a ha) depth more) hmore
    have hinside : disjunction (term (depth + 1))
        (joined .or ((c :: d :: t).map Comparison.tokens) ++ .closed :: rest) =
        some (((d :: t).map Comparison.condition).foldl .or c.condition, .closed :: rest) :=
      sequence_joined hconjunction (by decide) (by simp) (by simp)
    have hterm : term (depth + 2)
        (.opened :: (joined .or ((c :: d :: t).map Comparison.tokens) ++ .closed :: rest)) =
        some (Term.condition (c :: d :: t), rest) := by
      rw [term, hinside]
      rfl
    simpa [Term.tokens] using hterm

/-! ### Rendered predicates -/

theorem numbers_eq_range' {first count : ℕ} (h : first + count ≤ wordSize) :
    numbers first count = List.range' first count := by
  rw [numbers, List.range'_eq_map_range]
  refine List.map_congr_left fun i hi => Nat.mod_eq_of_lt ?_
  have := List.mem_range.1 hi
  omega

/-- How many values some clauses have. -/
def valueCount (clauses : List FilterClause) : ℕ := (clauses.flatMap (·.values)).length

@[simp] theorem valueCount_cons (c : FilterClause) (clauses : List FilterClause) :
    valueCount (c :: clauses) = c.values.length + valueCount clauses := by
  simp [valueCount]

variable {columns : FilterColumns} {clauses : List FilterClause}

/-- Placeholders are given out in order, one for each value. -/
theorem placeholders_comparisons {next : ℕ} (h : next + valueCount clauses ≤ wordSize) :
    (comparisons columns next clauses).flatMap (·.placeholders) =
      List.range' next (valueCount clauses) := by
  induction clauses generalizing next with
  | nil => rfl
  | cons c clauses ih =>
    rw [valueCount_cons] at h ⊢
    rw [comparisons, List.flatMap_cons, ih (by omega), numbers_eq_range' (by omega),
      List.range'_append_1]

theorem placeholders_ne_nil {next : ℕ} (h : ∀ c ∈ clauses, c.values ≠ []) :
    ∀ c ∈ comparisons columns next clauses, c.placeholders ≠ [] := by
  induction clauses generalizing next with
  | nil => simp [comparisons]
  | cons a clauses ih =>
    intro c hc
    rw [comparisons, List.mem_cons] at hc
    obtain rfl | hc := hc
    · have hvalues := h a List.mem_cons_self
      simpa [numbers] using hvalues
    · exact ih (fun b hb => h b (List.mem_cons_of_mem a hb)) c hc

variable {row : String → Option String} {binding : ℕ → Option String} {record : RecordId}
  {owner : Option UserId}

theorem matchesRecord_iff {c : FilterClause}
    (hid : row columns.id = some record.text) (howner : row columns.owner = owner.map (·.text)) :
    c.matchesRecord record owner = true ↔
      ∃ x, row (columns.physical c.column) = some x ∧ x ∈ c.values := by
  unfold FilterClause.matchesRecord FilterColumns.physical
  cases c.column with
  | id => simp [hid]
  | owner => cases owner <;> simp [howner]

/-- A comparison of a column with the placeholders of some values is true when it holds one of
them. -/
theorem eval_numbers_eq_true {column : String} {operator : FilterOperator} {values : List String}
    {next : ℕ} (h : next + values.length ≤ wordSize)
    (hbinding : ∀ i < values.length, binding (next + i) = values[i]?) :
    (Comparison.mk column operator (numbers next values.length)).condition.eval row binding =
      some true ↔ ∃ x, row column = some x ∧ x ∈ values := by
  rw [Comparison.eval_condition_eq_true, numbers_eq_range' h]
  constructor
  · rintro ⟨n, hn, x, hrow, hx⟩
    obtain ⟨hle, hlt⟩ := List.mem_range'_1.1 hn
    obtain ⟨i, rfl⟩ := Nat.exists_eq_add_of_le hle
    rw [hbinding i (by omega)] at hx
    exact ⟨x, hrow, List.mem_of_getElem? hx⟩
  · rintro ⟨x, hrow, hx⟩
    obtain ⟨i, hi⟩ := List.mem_iff_getElem?.1 hx
    obtain ⟨hlt, -⟩ := List.getElem?_eq_some_iff.1 hi
    exact ⟨next + i, List.mem_range'_1.2 ⟨by omega, by omega⟩, x, hrow,
      (hbinding i hlt).trans hi⟩

/-- One of the comparisons of some clauses is true when one of the clauses matches. -/
theorem exists_comparison_iff (hid : row columns.id = some record.text)
    (howner : row columns.owner = owner.map (·.text)) {next : ℕ}
    (h : next + valueCount clauses ≤ wordSize)
    (hbinding : ∀ i < valueCount clauses,
      binding (next + i) = (clauses.flatMap (·.values))[i]?) :
    (∃ c ∈ comparisons columns next clauses, c.condition.eval row binding = some true) ↔
      ∃ c ∈ clauses, c.matchesRecord record owner = true := by
  induction clauses generalizing next with
  | nil => simp [comparisons]
  | cons c clauses ih =>
    rw [valueCount_cons] at h hbinding
    -- the values of the first clause are bound in front of those of the others
    have hfirst : ∀ i < c.values.length, binding (next + i) = c.values[i]? := by
      intro i hi
      rw [hbinding i (by omega), List.flatMap_cons, List.getElem?_append_left hi]
    have hrest : ∀ i < valueCount clauses,
        binding (next + c.values.length + i) = (clauses.flatMap (·.values))[i]? := by
      intro i hi
      rw [Nat.add_assoc, hbinding _ (by omega), List.flatMap_cons,
        List.getElem?_append_right (Nat.le_add_right _ _), Nat.add_sub_cancel_left]
    rw [comparisons, List.exists_mem_cons_iff, List.exists_mem_cons_iff,
      ih (by omega) hrest, eval_numbers_eq_true (by omega) hfirst, matchesRecord_iff hid howner]

end Sql

/-- What is rendered is read back, however deep. -/
theorem Sql.term?_chars {t : Sql.Term} (h : ∀ c ∈ t, c.placeholders ≠ []) :
    Sql.term? (String.ofList t.chars) = some t.condition := by
  have htokens : Sql.tokens (String.ofList t.chars) = t.tokens := by
    have hscan : Sql.scan .nothing (t.chars ++ []) = t.tokens ++ Sql.scan .nothing [] :=
      t.scan_chars (by simp [Sql.Apart])
    simpa [Sql.tokens, Sql.scan, Sql.Pending.ended] using hscan
  have hterm := Sql.Term.term_tokens h 0 []
  rw [List.append_nil] at hterm
  have hne : t.tokens.length ≠ 0 := by
    intro hnil
    rw [List.length_eq_zero_iff.1 hnil] at hterm
    cases hterm
  rw [Sql.term?, Sql.whole_eq_some, htokens]
  exact Sql.term_mono (by omega) hterm

theorem FilterClause.values_ne_nil {c : FilterClause} {record : RecordId} {owner : Option UserId}
    (h : c.matchesRecord record owner = true) : c.values ≠ [] := by
  obtain ⟨column, operator, values⟩ := c
  rintro rfl
  cases column <;> cases owner <;> simp [matchesRecord] at h

namespace SharingPredicate

variable {p : SharingPredicate}

theorem mem_used {c : FilterClause} : c ∈ p.used ↔ c ∈ p.clauses ∧ c.values ≠ [] := by
  simp [used]

/-- The clauses without values match nothing. -/
theorem matches_iff_used {record : RecordId} {owner : Option UserId} :
    p.matchesRecord record owner = true ↔
      ∃ c ∈ p.used, c.matchesRecord record owner = true := by
  rw [matches_iff]
  constructor
  · rintro ⟨c, hc, hmatch⟩
    exact ⟨c, mem_used.2 ⟨hc, FilterClause.values_ne_nil hmatch⟩, hmatch⟩
  · rintro ⟨c, hc, hmatch⟩
    exact ⟨c, (mem_used.1 hc).1, hmatch⟩

/-- **The text of a predicate means what the predicate matches.**  It reads as one term, which may
stand behind any conjunction and `AND`.  The placeholders are numbered from the first one, one for
each parameter in order.  On the row of a record, with the parameters bound, the term is true
exactly when the record matches. -/
theorem toSql_reads_as_matching (p : SharingPredicate) (columns : FilterColumns) (first : ℕ)
    (h : first + (p.toSql columns first).params.length < Sql.wordSize) :
    ∃ c, Sql.term? (p.toSql columns first).sql = some c ∧
      (∀ conjuncts d, Sql.conjunction? conjuncts = some d →
        Sql.condition? (conjuncts ++ " AND " ++ (p.toSql columns first).sql) = some (.and d c)) ∧
      c.placeholders = List.range' first (p.toSql columns first).params.length ∧
      ∀ row binding record owner, row columns.id = some record.text →
        row columns.owner = owner.map (·.text) →
        (∀ i < (p.toSql columns first).params.length,
          binding (first + i) = (p.toSql columns first).params[i]?) →
        (c.eval row binding = some true ↔ p.matchesRecord record owner = true) := by
  have hfits : first + Sql.valueCount p.used ≤ Sql.wordSize := Nat.le_of_lt h
  have hterm : Sql.term? (p.toSql columns first).sql =
      some (Sql.comparisons columns first p.used).condition :=
    Sql.term?_chars (Sql.placeholders_ne_nil fun c hc => (mem_used.1 hc).2)
  -- the clauses without values are left out of the text and match nothing
  refine ⟨_, hterm, fun conjuncts d hd => Sql.condition?_and hd hterm, ?_, ?_⟩
  · rw [Sql.Term.placeholders_condition, Sql.placeholders_comparisons hfits]
    rfl
  · intro row binding record owner hid howner hbinding
    rw [Sql.Term.eval_condition_eq_true, matches_iff_used]
    exact Sql.exists_comparison_iff hid howner hfits hbinding

/-- Both columns have a name that would read as something else without its quotes, and the row has
no owner. -/
theorem quoted_columns_read :
    ∃ c, Sql.term? "(\x22$1\x22 = $3 OR \x22a\x22\x22 OR FALSE\x22 IN ($4, $5))" = some c ∧
      c.placeholders = [3, 4, 5] ∧
      c.eval (fun column => if column = "a\x22 OR FALSE" then some "s" else none)
        (fun n => ["u", "r", "s"][n - 3]?) = some true := by
  have htext : (⟨[.ownerEq ⟨"u"⟩, ⟨.id, .isIn, []⟩, ⟨.id, .eq, ["r", "s"]⟩]⟩ :
      SharingPredicate).toSql ⟨"a\x22 OR FALSE", "$1"⟩ 3 =
      ⟨"(\x22$1\x22 = $3 OR \x22a\x22\x22 OR FALSE\x22 IN ($4, $5))", ["u", "r", "s"]⟩ := by
    rfl
  obtain ⟨c, hterm, -, hplaceholders, heval⟩ := toSql_reads_as_matching
    ⟨[.ownerEq ⟨"u"⟩, ⟨.id, .isIn, []⟩, ⟨.id, .eq, ["r", "s"]⟩]⟩ ⟨"a\x22 OR FALSE", "$1"⟩ 3
    (by decide)
  rw [htext] at hterm hplaceholders heval
  exact ⟨c, hterm, hplaceholders, (heval _ _ ⟨"s"⟩ none rfl rfl (by decide)).2 (by decide)⟩

end SharingPredicate

end RecordAccess
