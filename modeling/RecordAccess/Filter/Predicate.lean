import RecordAccess.Id
import RecordAccess.Text.Sorted

/-!
# Sharing predicates

A `SharingPredicate` selects the records of a collection that a user may reach.  It is a disjunction
of clauses; each asks whether the id or the owner of a record is among some values.  It holds no
query text: `SharingPredicate.matchesRecord` evaluates it, `RecordAccess.Filter.Sql` renders it, and
`SharingPredicate.display` shows it to people.
-/

namespace RecordAccess

/-! ### Clauses -/

/-- The column of a record that a clause tests. -/
inductive FilterColumn
  | id
  | owner
deriving DecidableEq, Inhabited

/-- The name used in documents and shown to people. -/
def FilterColumn.name : FilterColumn → String
  | .id => "id"
  | .owner => "owner"

/-- How a clause compares. -/
inductive FilterOperator
  | eq
  | isIn
deriving DecidableEq, Inhabited

/-- The name used in documents. -/
def FilterOperator.name : FilterOperator → String
  | .eq => "eq"
  | .isIn => "in"

/-- One test of a record. -/
structure FilterClause where
  column : FilterColumn
  operator : FilterOperator
  values : List String
deriving DecidableEq, Inhabited

namespace FilterClause

/-- The owner is one user. -/
def ownerEq (user : UserId) : FilterClause := ⟨.owner, .eq, [user.text]⟩

/-- The owner is one of several users. -/
def ownerIn (users : List UserId) : FilterClause :=
  ⟨.owner, .isIn, Text.sortedSet (users.map (·.text))⟩

/-- The record is one of several. -/
def idIn (records : List RecordId) : FilterClause :=
  ⟨.id, .isIn, Text.sortedSet (records.map (·.text))⟩

/-- Whether the clause holds of a record; a record without an owner has no owner to test. -/
def matchesRecord (c : FilterClause) (record : RecordId) (owner : Option UserId) : Bool :=
  match c.column with
  | .id => c.values.contains record.text
  | .owner =>
    match owner with
    | none => false
    | some user => c.values.contains user.text

/-- The text shown to people. -/
def display (c : FilterClause) : String :=
  match c.operator with
  | .eq => c.column.name ++ " = " ++ ", ".intercalate c.values
  | .isIn => c.column.name ++ " IN [" ++ ", ".intercalate c.values ++ "]"

end FilterClause

/-! ### Predicates -/

/-- A disjunction of clauses; without clauses it holds of no record. -/
structure SharingPredicate where
  clauses : List FilterClause
deriving DecidableEq, Inhabited

namespace SharingPredicate

/-- The predicate that holds of no record. -/
def nothing : SharingPredicate := ⟨[]⟩

/-- Whether no clause has a value, so that no record can match. -/
def isNothing (p : SharingPredicate) : Bool := p.clauses.all fun c => c.values.isEmpty

/-- The predicate with one more clause. -/
def push (p : SharingPredicate) (c : FilterClause) : SharingPredicate := ⟨p.clauses ++ [c]⟩

/-- Whether a record matches. -/
def matchesRecord (p : SharingPredicate) (record : RecordId) (owner : Option UserId) : Bool :=
  p.clauses.any fun c => c.matchesRecord record owner

/-- The clauses that have values. -/
def used (p : SharingPredicate) : List FilterClause := p.clauses.filter fun c => !c.values.isEmpty

/-- The text shown to people. -/
def display (p : SharingPredicate) : String :=
  if p.isNothing then "FALSE" else " OR ".intercalate (p.used.map FilterClause.display)

end SharingPredicate

end RecordAccess
