import RecordAccess.Json.Printer
import RecordAccess.Json.Reader

/-!
# Text forms of JSON values

How values are written as texts and read from them.  The one in use is the strict grammar of
`Json.read?` with the two layouts `Json.compact` and `Json.pretty`.
-/

namespace RecordAccess.Json

/-- A way to write values as texts and to read them. -/
class TextForm where
  /-- The text of a value on one line. -/
  compact : Json → String
  /-- The text of a value with one item or member a line. -/
  pretty : Json → String
  /-- Reads a text that holds one value. -/
  read? : String → Option Json

instance : TextForm := ⟨compact, pretty, read?⟩

end RecordAccess.Json
