import RecordAccess.Decimal.Digits
import RecordAccess.Filter.Predicate

/-!
# Predicates as SQL

`SharingPredicate.toSql` renders a predicate as one boolean term.  Every value becomes a numbered
placeholder and goes to the parameters; the only names in the text are the caller's columns, quoted.

The rendering goes through `Sql.Term`: `Sql.term` builds the comparisons and gives out placeholders,
`Sql.Term.chars` writes them.
-/

namespace RecordAccess

/-- The physical names of the columns. -/
structure FilterColumns where
  id : String
  owner : String
deriving DecidableEq

namespace FilterColumns

/-- The usual names. -/
def standard : FilterColumns := ⟨"id", "owner_id"⟩

instance : Inhabited FilterColumns := ⟨standard⟩

/-- The physical name of a column. -/
def physical (cs : FilterColumns) : FilterColumn → String
  | .id => cs.id
  | .owner => cs.owner

end FilterColumns

/-- The text of a boolean term and the values to bind, in the order of their placeholders. -/
structure SqlFragment where
  sql : String
  params : List String
deriving DecidableEq, Inhabited

namespace Sql

/-- Placeholder numbers are 64-bit words. -/
def wordSize : Nat := Nat.pow 2 64

/-- Consecutive placeholder numbers from a first one. -/
def numbers (first count : Nat) : List Nat :=
  (List.range count).map fun i => (first + i) % wordSize

/-- One comparison of a column with placeholders. -/
structure Comparison where
  /-- The physical name of the column. -/
  column : String
  operator : FilterOperator
  /-- The numbers of the placeholders. -/
  placeholders : List Nat
deriving DecidableEq

/-- A disjunction of comparisons. -/
abbrev Term := List Comparison

/-- The comparisons of clauses that have values, with placeholders numbered from `next`. -/
def comparisons (columns : FilterColumns) : (next : Nat) → List FilterClause → Term
  | _, [] => []
  | next, c :: rest =>
    ⟨columns.physical c.column, c.operator, numbers next c.values.length⟩ ::
      comparisons columns (next + c.values.length) rest

/-- A name between double quotes; a quote inside is written twice. -/
def quoteName (name : String) : List Char :=
  '\x22' :: name.toList.flatMap (fun c => if c = '\x22' then ['\x22', '\x22'] else [c]) ++ ['\x22']

/-- A placeholder. -/
def placeholder (n : Nat) : List Char := '$' :: Decimal.written n

/-- Texts with a separator between them. -/
def separated (sep : List Char) : List (List Char) → List Char
  | [] => []
  | [t] => t
  | t :: u :: rest => t ++ sep ++ separated sep (u :: rest)

/-- The characters of a comparison: an equation if it compares one placeholder for equality, a list
otherwise. -/
def Comparison.chars (c : Comparison) : List Char :=
  match c.operator, c.placeholders with
  | .eq, [n] => quoteName c.column ++ [' ', '=', ' '] ++ placeholder n
  | _, ns =>
    quoteName c.column ++ [' ', 'I', 'N', ' ', '('] ++ separated [',', ' '] (ns.map placeholder) ++
      [')']

/-- The characters of a disjunction, in parentheses if it has several parts. -/
def Term.chars : Term → List Char
  | [] => ['F', 'A', 'L', 'S', 'E']
  | [c] => c.chars
  | cs => '(' :: separated [' ', 'O', 'R', ' '] (cs.map Comparison.chars) ++ [')']

end Sql

/-- Renders the predicate with placeholders numbered from `first`. -/
def SharingPredicate.toSql (p : SharingPredicate) (columns : FilterColumns) (first : Nat) :
    SqlFragment :=
  ⟨String.ofList (Sql.Term.chars (Sql.comparisons columns first p.used)),
    p.used.flatMap (·.values)⟩

end RecordAccess
