import RecordAccess.Text.Lines
import RecordAccess.Text.Width

/-!
# Text tables

A `Table` has a row of titles and rows of cells; `Table.render` draws it with rounded corners, a
line under the titles and every cell aligned to the left.  A cell with several lines makes its row
higher.
-/

namespace RecordAccess

/-- A table of texts. -/
structure Table where
  titles : List String
  rows : List (List String)
deriving DecidableEq, Inhabited

namespace Table

/-- The width of a cell. -/
def cellWidth (cell : String) : Nat :=
  ((Text.linesOf cell.toList).map Text.width).foldl max 0

/-- The widths of the columns. -/
def widths (t : Table) : List Nat :=
  t.titles.zipIdx.map fun (title, i) =>
    t.rows.foldl (fun w row => max w (cellWidth (row.getD i ""))) (cellWidth title)

/-- A horizontal line. -/
def rule (left middle right : Char) (widths : List Nat) : List Char :=
  let bars := widths.map fun w => List.replicate (w + 2) '─'
  left :: (List.intercalate [middle] bars ++ [right])

/-- One line of a row, given the line of each of its cells. -/
def lineOf (widths : List Nat) (cells : List (List Char)) : List Char :=
  let padded := (widths.zip cells).map fun (w, cell) => ' ' :: Text.padTo w cell ++ [' ']
  '│' :: (List.intercalate ['│'] padded ++ ['│'])

/-- The lines of a row. -/
def rowLines (widths : List Nat) (cells : List String) : List (List Char) :=
  let cells := cells.map fun cell => Text.linesOf cell.toList
  let height := cells.foldl (fun h ls => max h ls.length) 1
  (List.range height).map fun i => lineOf widths (cells.map fun ls => ls.getD i [])

/-- The lines of the table. -/
def lines (t : Table) : List (List Char) :=
  let ws := t.widths
  [rule '╭' '┬' '╮' ws] ++ rowLines ws t.titles ++ [rule '├' '┼' '┤' ws] ++
    t.rows.flatMap (rowLines ws) ++ [rule '╰' '┴' '╯' ws]

/-- The text of the table, without a line end after its last line. -/
def render (t : Table) : String := String.ofList (Text.joinLines t.lines)

end Table

end RecordAccess
