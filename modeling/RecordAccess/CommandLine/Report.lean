import RecordAccess.Codec.Outcomes
import RecordAccess.CommandLine.Invocation
import RecordAccess.Engine.Compile
import RecordAccess.Json.Printer
import RecordAccess.Table
import RecordAccess.Yaml.Printer

/-!
# Reports

What a command prints: a report for people with a table, or one value as JSON or YAML.  Reports for
people may be colored.
-/

namespace RecordAccess.CommandLine

/-- How a text is shown on a terminal. -/
inductive Emphasis
  | good
  | bad
  | info
  | name
  | title
  | faint
deriving DecidableEq

/-- The control codes of an emphasis. -/
def Emphasis.codes : Emphasis → String
  | .good => "1;32"
  | .bad => "1;31"
  | .info => "1;34"
  | .name => "36"
  | .title => "1;4"
  | .faint => "2"

/-- Where a report is shown. -/
structure Screen where
  colored : Bool

namespace Screen

/-- A text with an emphasis. -/
def paint (s : Screen) (e : Emphasis) (t : String) : String :=
  if s.colored then "\x1b[" ++ e.codes ++ "m" ++ t ++ "\x1b[0m" else t

/-- A line. -/
def line (t : String) : String := t ++ "\n"

/-- The title of a report. -/
def header (s : Screen) (title : String) : String := "\n" ++ line (s.paint .title title) ++ "\n"

/-- A name with its value. -/
def detail (s : Screen) (name value : String) : String :=
  line ("  " ++ s.paint .name name ++ ": " ++ value)

/-- A mark in brackets with a message. -/
def marked (s : Screen) (e : Emphasis) (mark message : String) : String :=
  line (s.paint e ("[" ++ mark ++ "]") ++ " " ++ message)

/-- A table, or a remark in place of an empty one. -/
def table (s : Screen) (t : Table) : String :=
  if t.rows.isEmpty then line (s.paint .faint "No results found.") else line t.render

end Screen

/-- The text of a value in a form of output; there is no table of a single value. -/
def document (f : Format) (j : Json) : String :=
  match f with
  | .yaml => Yaml.print j
  | _ => j.pretty ++ "\n"

namespace Report

/-! ### A record -/

/-- What a check of a record says. -/
def check (s : Screen) (f : Format) (user : UserId) (record : Record) (access : AccessType)
    (d : Decision) : String :=
  if f = .table then
    let owner := match record.owner with
      | some o => o.text
      | none => "-"
    let message := user.text ++ " " ++ access.label ++ " " ++ record.id.text ++ ": " ++ d.display
    s.header "Access Check" ++ s.detail "User" user.text ++ s.detail "Record" record.id.text ++
      s.detail "Owner" owner ++ s.detail "Access" access.label ++ "\n" ++
      (if d.isGranted then s.marked .good "GRANTED" message else s.marked .bad "DENIED" message)
  else
    document f (.object [("user_id", user.toJson), ("record_id", record.id.toJson),
      ("access", access.toJson), ("allowed", .bool d.isGranted), ("decision", d.toJson)])

/-! ### A list of records -/

/-- The sign of an operator. -/
def sign : FilterOperator → String
  | .eq => "="
  | .isIn => "IN"

/-- The clauses of a predicate as a table. -/
def clauseTable (columns : FilterColumns) (p : SharingPredicate) : Table :=
  ⟨["Column", "Operator", "Values"], p.clauses.map fun c =>
    [columns.physical c.column, sign c.operator, String.intercalate ", " c.values]⟩

/-- What a filter for people says. -/
def filterTable (s : Screen) (columns : FilterColumns) (first : Nat) :
    Option SharingPredicate → String
  | none => s.marked .info "INFO" "Unrestricted: every record in the collection is visible"
  | some p =>
    let fragment := p.toSql columns first
    s.header "Sharing Filter" ++ s.detail "Predicate" p.display ++ s.detail "SQL" fragment.sql ++
      s.detail "Params" (String.intercalate ", " fragment.params) ++ "\n" ++
      s.table (clauseTable columns p)

/-- What a filter says. -/
def filter (s : Screen) (f : Format) (columns : FilterColumns) (first : Nat)
    (p : Option SharingPredicate) : String :=
  if f = .table then filterTable s columns first p
  else
    let orNull (j : Option Json) : Json := j.getD .null
    document f (.object [("unrestricted", .bool p.isNone),
      ("predicate", orNull (p.map SharingPredicate.toJson)),
      ("sql", orNull (p.map fun p => (p.toSql columns first).toJson))])

/-! ### Ids -/

/-- A sorted list of ids under a title. -/
def idList (s : Screen) (f : Format) (title : String) (ids : List String) : String :=
  let ids := ids.mergeSort fun a b => !(decide (b < a))
  if f = .table then s.header title ++ s.table ⟨["ID"], ids.map fun i => [i]⟩
  else document f (.array (ids.map fun i => .object [("id", .string i)]))

end Report

/-- What a command prints when an engine answers it. -/
def Command.report (e : Engine) (s : Screen) (f : Format) : Command → Run String
  | .check user record access => do
    pure (Report.check s f user record access (← e.evaluate user record access))
  | .filter user tenant collection access columns first => do
    pure (Report.filter s f columns first (← e.filter user tenant collection access))
  | .groups user => do
    let title := "Effective groups (max depth " ++ Decimal.text e.settings.maxGroupDepth ++ ")"
    pure (Report.idList s f title ((← e.effectiveGroups user).map (·.text)))
  | .members group => do
    pure (Report.idList s f "Effective members" ((← e.effectiveUsers group).map (·.text)))

end RecordAccess.CommandLine
