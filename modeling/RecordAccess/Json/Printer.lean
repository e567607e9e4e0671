import RecordAccess.Json.Basic

/-!
# JSON text

`Json.compact` prints a value on one line without blanks; `Json.pretty` puts every item and member
on a line of its own, indented by two blanks.  A string is written with the characters it holds;
only quotes, backslashes and control characters are escaped.
-/

namespace RecordAccess.Json

/-- A hexadecimal digit, in lower case. -/
def hexDigit (n : Nat) : Char := (Nat.digitChar n)

/-- How a character is written inside a string. -/
def escape (c : Char) : List Char :=
  if c = '\x22' then ['\\', '\x22']
  else if c = '\\' then ['\\', '\\']
  else if c = '\n' then ['\\', 'n']
  else if c = '\r' then ['\\', 'r']
  else if c = '\t' then ['\\', 't']
  else if c = '\x08' then ['\\', 'b']
  else if c = '\x0c' then ['\\', 'f']
  else if c.toNat < 32 then ['\\', 'u', '0', '0', hexDigit (c.toNat / 16), hexDigit (c.toNat % 16)]
  else [c]

/-- A text between quotes. -/
def quoted (t : String) : List Char := '\x22' :: t.toList.flatMap escape ++ ['\x22']

/-- The characters of a number. -/
def Number.chars : Number → List Char
  | .integer i => (Decimal.intText i).toList
  | .double d => (Decimal.Layout.json.write d).toList

/-! ### On one line -/

mutual

/-- The characters of a value on one line. -/
def chars : Json → List Char
  | .null => ['n', 'u', 'l', 'l']
  | .bool true => ['t', 'r', 'u', 'e']
  | .bool false => ['f', 'a', 'l', 's', 'e']
  | .number n => n.chars
  | .string t => quoted t
  | .array [] => ['[', ']']
  | .array (item :: items) => '[' :: chars item ++ charsItems items
  | .object [] => ['\x7b', '\x7d']
  | .object ((name, value) :: members) =>
    '\x7b' :: quoted name ++ ':' :: chars value ++ charsMembers members

/-- The further items of an array, each after a comma, and the bracket. -/
def charsItems : List Json → List Char
  | [] => [']']
  | item :: items => ',' :: chars item ++ charsItems items

/-- The further members of an object, each after a comma, and the brace. -/
def charsMembers : List (String × Json) → List Char
  | [] => ['\x7d']
  | (name, value) :: members =>
    ',' :: quoted name ++ ':' :: chars value ++ charsMembers members

end

/-- The text of a value on one line. -/
def compact (j : Json) : String := String.ofList j.chars

/-! ### On many lines -/

/-- A new line, indented. -/
def newline (indent : Nat) : List Char := '\n' :: List.replicate (2 * indent) ' '

mutual

/-- The characters of a value at a level of indentation. -/
def lines (indent : Nat) : Json → List Char
  | .null => ['n', 'u', 'l', 'l']
  | .bool true => ['t', 'r', 'u', 'e']
  | .bool false => ['f', 'a', 'l', 's', 'e']
  | .number n => n.chars
  | .string t => quoted t
  | .array [] => ['[', ']']
  | .array (item :: items) =>
    '[' :: newline (indent + 1) ++ lines (indent + 1) item ++ linesItems indent items
  | .object [] => ['\x7b', '\x7d']
  | .object ((name, value) :: members) =>
    '\x7b' :: newline (indent + 1) ++ quoted name ++ ':' :: ' ' :: lines (indent + 1) value ++
      linesMembers indent members

/-- The further items of an array, one a line, and the bracket. -/
def linesItems (indent : Nat) : List Json → List Char
  | [] => newline indent ++ [']']
  | item :: items =>
    ',' :: newline (indent + 1) ++ lines (indent + 1) item ++ linesItems indent items

/-- The further members of an object, one a line, and the brace. -/
def linesMembers (indent : Nat) : List (String × Json) → List Char
  | [] => newline indent ++ ['\x7d']
  | (name, value) :: members =>
    ',' :: newline (indent + 1) ++ quoted name ++ ':' :: ' ' :: lines (indent + 1) value ++
      linesMembers indent members

end

/-- The text of a value with one item or member a line. -/
def pretty (j : Json) : String := String.ofList (lines 0 j)

end RecordAccess.Json
