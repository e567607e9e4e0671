import RecordAccess.Json.Printer
import RecordAccess.Text.Lines
import RecordAccess.Yaml.Character
import RecordAccess.Yaml.Scalar

/-!
# YAML text

`Yaml.print` writes a value in block style.  The items of a sequence stand at the column of the
member that holds them; an empty sequence or mapping is written in brackets or braces.

A text is written without quotes if it reads back as the same text.  One that could be taken for
another type stands in single quotes, one of several lines becomes a literal block, and one with
characters that cannot be shown stands in double quotes, where they are escaped.
-/

namespace RecordAccess.Yaml

/-! ### Styles of text -/

/-- The ways to write a text. -/
inductive Style
  | plain
  | singleQuoted
  | doubleQuoted
  | literal
deriving DecidableEq

/-- Whether a character can be shown as it is. -/
def isShown (c : Char) : Bool :=
  let n := c.toNat
  n = 10 || (0x20 ≤ n && n ≤ 0x7E) || (0xA0 ≤ n && n ≤ 0xD7FF) ||
    (0xE000 ≤ n && n ≤ 0xFFFD && n ≠ 0xFEFF)

/-- Words that other readers take for truth values. -/
def isTruthWord (t : String) : Bool :=
  ["y", "Y", "yes", "Yes", "YES", "n", "N", "no", "No", "NO", "on", "On", "ON", "off", "Off",
    "OFF"].contains t

/-- Whether a text without quotes would be taken for something else. -/
def isAmbiguous (t : String) : Bool :=
  isTruthWord t || hasLeadingZero t.toList ||
    match plainValue? t with
    | some (.string _) => false
    | _ => true

/-- Whether a text starts with the mark of a document. -/
def hasDocumentMark (cs : List Char) : Bool :=
  match cs with
  | '-' :: '-' :: '-' :: _ => true
  | '.' :: '.' :: '.' :: _ => true
  | _ => false

/-- Whether what follows a character has a meaning for the character in front. -/
def isEndOrBlank : List Char → Bool
  | [] => true
  | c :: _ => isGap c || isBreak c || c = '\x00'

/-- Whether a text has a mark of YAML in it, after its first character. -/
def hasInnerMark : (afterBlank : Bool) → List Char → Bool
  | _, [] => false
  | afterBlank, c :: rest =>
    (c = ':' && isEndOrBlank rest) || (c = '#' && afterBlank) ||
      hasInnerMark (isEndOrBlank [c]) rest

/-- Whether a text has a mark of YAML in it. -/
def hasMark (cs : List Char) : Bool :=
  match cs with
  | [] => false
  | c :: rest =>
    hasDocumentMark cs || "#,[]\x7b\x7d&*!|>\x27\x22%@\x60".toList.contains c ||
      ((c = '?' || c = ':' || c = '-') && isEndOrBlank rest) || hasInnerMark (isEndOrBlank [c]) rest

/-- Whether the first or the last character is a space or ends a line. -/
def hasEdge (cs : List Char) : Bool :=
  let isEdge (c : Option Char) : Bool := c.any fun c => c = ' ' || isBreak c
  isEdge cs.head? || isEdge cs.getLast?

/-- Whether a text has two neighbours of which the first satisfies one test and the second another
one. -/
def hasPair (first second : Char → Bool) : List Char → Bool
  | a :: b :: rest => (first a && second b) || hasPair first second (b :: rest)
  | _ => false

/-- Whether a text can be written without quotes. -/
def mayBePlain (cs : List Char) : Bool :=
  cs.all isShown && !cs.any isBreak && !hasEdge cs && !hasMark cs

/-- Whether a text can be written in single quotes. -/
def mayBeSingleQuoted (cs : List Char) : Bool :=
  cs.all isShown && !hasPair isBreak (· = ' ') cs && !hasPair (· = ' ') isBreak cs

/-- Whether a text can be written as a literal block. -/
def mayBeLiteral (cs : List Char) : Bool :=
  cs.all isShown && cs.getLast? ≠ some ' '

/-- How a text is written. -/
def styleOf (t : String) : Style :=
  let cs := t.toList
  if cs.contains '\n' then if mayBeLiteral cs then .literal else .doubleQuoted
  else if !isAmbiguous t && mayBePlain cs then .plain
  else if mayBeSingleQuoted cs then .singleQuoted
  else .doubleQuoted

/-! ### Text -/

/-- A hexadecimal digit, in upper case. -/
def hexDigit (n : Nat) : Char := (Nat.digitChar n).toUpper

/-- The last hexadecimal digits of a number. -/
def hexDigits : (count : Nat) → Nat → List Char
  | 0, _ => []
  | count + 1, n => hexDigits count (n / 16) ++ [hexDigit (n % 16)]

/-- The letters that stand for characters after a backslash. -/
def escapes : List (Nat × Char) :=
  [(0, '0'), (7, 'a'), (8, 'b'), (9, 't'), (10, 'n'), (11, 'v'), (12, 'f'), (13, 'r'), (0x1B, 'e'),
    (0x22, '\x22'), (0x5C, '\\'), (0x85, 'N'), (0xA0, '_'), (0x2028, 'L'), (0x2029, 'P')]

/-- How a character is written in double quotes. -/
def escape (c : Char) : List Char :=
  if isShown c && !isBreak c && c ≠ '\x22' && c ≠ '\\' then [c]
  else
    let n := c.toNat
    match escapes.lookup n with
    | some letter => ['\\', letter]
    | none =>
      if n ≤ 0xFF then '\\' :: 'x' :: hexDigits 2 n
      else if n ≤ 0xFFFF then '\\' :: 'u' :: hexDigits 4 n
      else '\\' :: 'U' :: hexDigits 8 n

/-- The line above a literal block: whether the block starts with a blank, and what becomes of the
line ends after it. -/
def literalHeader (cs : List Char) : List Char :=
  let indent := match cs with
    | c :: _ => if c = ' ' || isBreak c then ['2'] else []
    | [] => []
  let chomp := match cs.reverse with
    | '\n' :: '\n' :: _ => ['+']
    | ['\n'] => ['+']
    | '\n' :: _ => []
    | _ => ['-']
  '|' :: indent ++ chomp

/-- The lines of a literal block. -/
def literalLines (cs : List Char) : List (List Char) :=
  let lines := Text.linesOf cs
  if lines.getLast? = some [] then lines.dropLast else lines

/-- How a text is written: where it starts, and the lines of a literal block below, which are to be
indented. -/
def textLines (t : String) : List Char × List (List Char) :=
  let cs := t.toList
  match styleOf t with
  | .plain => (cs, [])
  | .singleQuoted =>
    ('\x27' :: cs.flatMap (fun c => if c = '\x27' then ['\x27', '\x27'] else [c]) ++ ['\x27'], [])
  | .doubleQuoted => ('\x22' :: cs.flatMap escape ++ ['\x22'], [])
  | .literal => (literalHeader cs, literalLines cs)

/-! ### Values -/

/-- A line moved to the right; an empty one stays empty. -/
def indented (line : List Char) : List Char := if line.isEmpty then [] else ' ' :: ' ' :: line

/-- The lines of a value: how it starts, and the lines below. -/
structure Block where
  head : List Char
  body : List (List Char)

/-- The block of a scalar. -/
def scalarBlock : Json → Block
  | .null => ⟨['n', 'u', 'l', 'l'], []⟩
  | .bool b => ⟨(if b then "true" else "false").toList, []⟩
  | .number n => ⟨n.chars, []⟩
  | .string t => ⟨(textLines t).1, (textLines t).2⟩
  | .array _ => ⟨['[', ']'], []⟩
  | .object _ => ⟨['\x7b', '\x7d'], []⟩

/-- The lines of an item, from those of its value. -/
def itemLines : List (List Char) → List (List Char)
  | [] => []
  | line :: lines => ('-' :: ' ' :: line) :: lines.map indented

mutual

/-- The lines of a value. -/
def lines : Json → List (List Char)
  | .array (x :: xs) => itemLines (lines x) ++ linesItems xs
  | .object ((name, value) :: ms) => memberLines name value ++ linesMembers ms
  | value => (scalarBlock value).head :: (scalarBlock value).body.map indented

/-- The lines of the items of a sequence. -/
def linesItems : List Json → List (List Char)
  | [] => []
  | x :: xs => itemLines (lines x) ++ linesItems xs

/-- The lines of a member of a mapping. -/
def memberLines (name : String) : Json → List (List Char)
  | .array (x :: xs) =>
    ((textLines name).1 ++ [':']) :: (itemLines (lines x) ++ linesItems xs)
  | .object ((n, v) :: ms) =>
    ((textLines name).1 ++ [':']) :: (memberLines n v ++ linesMembers ms).map indented
  | value =>
    ((textLines name).1 ++ ':' :: ' ' :: (scalarBlock value).head) ::
      (scalarBlock value).body.map indented

/-- The lines of the members of a mapping. -/
def linesMembers : List (String × Json) → List (List Char)
  | [] => []
  | (name, value) :: ms => memberLines name value ++ linesMembers ms

end

/-- The text of a value, with a line end after every line. -/
def print (j : Json) : String := String.ofList ((lines j).flatMap (· ++ ['\n']))

end RecordAccess.Yaml
