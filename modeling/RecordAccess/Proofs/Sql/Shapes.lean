import Mathlib.Data.List.Forall2
import RecordAccess.Filter.Sql

/-!
# Values stay out of the text

The text of a rendered predicate depends on the shape of its clauses only: on their columns, their
operators and how many values they have (`FilterClause.SameShape`).  What the values are shows in
the parameters alone, where they stand as they are (`SharingPredicate.values_stay_out_of_text`).
-/

namespace RecordAccess

/-! ### Shapes -/

/-- Two clauses compare the same column in the same way with as many values. -/
structure FilterClause.SameShape (c' c : FilterClause) : Prop where
  column : c'.column = c.column
  operator : c'.operator = c.operator
  length : c'.values.length = c.values.length

theorem FilterClause.SameShape.isEmpty_eq {c' c : FilterClause} (h : SameShape c' c) :
    c'.values.isEmpty = c.values.isEmpty := by
  rw [Bool.eq_iff_iff, List.isEmpty_iff_length_eq_zero, List.isEmpty_iff_length_eq_zero, h.length]

/-- Clauses of the same shapes make the same comparisons, with the same placeholders. -/
theorem Sql.comparisons_eq_of_sameShape {cs' cs : List FilterClause}
    (h : List.Forall₂ FilterClause.SameShape cs' cs) (columns : FilterColumns) (next : ℕ) :
    comparisons columns next cs' = comparisons columns next cs := by
  induction h generalizing next with
  | nil => rfl
  | cons hc _ ih => rw [comparisons, comparisons, hc.column, hc.operator, hc.length, ih]

namespace SharingPredicate

theorem forall₂_used {p' p : SharingPredicate}
    (h : List.Forall₂ FilterClause.SameShape p'.clauses p.clauses) :
    List.Forall₂ FilterClause.SameShape p'.used p.used :=
  List.rel_filter (fun _ _ hc => by simp only [hc.isEmpty_eq]) h

/-- Clauses that are left out have no values that would be missed. -/
theorem params_toSql (p : SharingPredicate) (columns : FilterColumns) (first : ℕ) :
    (p.toSql columns first).params = p.clauses.flatMap (·.values) := by
  show p.used.flatMap (·.values) = _
  unfold used
  induction p.clauses with
  | nil => rfl
  | cons c cs ih =>
    cases hc : c.values with
    | nil => simpa [hc] using ih
    | cons v vs => simpa [hc] using ih

/-- **Values stay out of the text.**  Predicates whose clauses have the same shapes are rendered to
the same text, whatever their values are.  The parameters of each are its own values in order. -/
theorem values_stay_out_of_text (p' p : SharingPredicate)
    (h : List.Forall₂ FilterClause.SameShape p'.clauses p.clauses) (columns : FilterColumns)
    (first : ℕ) :
    (p'.toSql columns first).sql = (p.toSql columns first).sql ∧
      (p'.toSql columns first).params = p'.clauses.flatMap (·.values) ∧
      (p.toSql columns first).params = p.clauses.flatMap (·.values) := by
  refine ⟨?_, params_toSql p' columns first, params_toSql p columns first⟩
  show String.ofList (Sql.Term.chars (Sql.comparisons columns first p'.used)) = _
  rw [Sql.comparisons_eq_of_sameShape (forall₂_used h)]
  rfl

/-- A value that would end the text of another condition, and one that looks like a placeholder,
leave the text as it is. -/
theorem hostile_values_unseen :
    let hostile : SharingPredicate := ⟨[.ownerEq ⟨"u\x22; DROP TABLE t; --"⟩,
      ⟨.id, .isIn, ["' OR 1=1", "$9"]⟩, ⟨.owner, .isIn, []⟩]⟩
    let plain : SharingPredicate :=
      ⟨[.ownerEq ⟨"u"⟩, ⟨.id, .isIn, ["r", "s"]⟩, ⟨.owner, .isIn, []⟩]⟩
    List.Forall₂ FilterClause.SameShape hostile.clauses plain.clauses ∧
      (hostile.toSql .standard 4).sql = (plain.toSql .standard 4).sql ∧
      (hostile.toSql .standard 4).params = ["u\x22; DROP TABLE t; --", "' OR 1=1", "$9"] := by
  intro hostile plain
  have hshape : List.Forall₂ FilterClause.SameShape hostile.clauses plain.clauses :=
    .cons ⟨rfl, rfl, rfl⟩ (.cons ⟨rfl, rfl, rfl⟩ (.cons ⟨rfl, rfl, rfl⟩ .nil))
  obtain ⟨htext, hparams, -⟩ := values_stay_out_of_text hostile plain hshape .standard 4
  exact ⟨hshape, htext, hparams⟩

end SharingPredicate

end RecordAccess
