/-!
# Characters of YAML

The classes of characters that the grammar tells apart, and a `Cursor` that counts lines and columns
while it moves over a text.
-/

namespace RecordAccess.Yaml

/-! ### Classes -/

/-- Whether a character ends a line. -/
def isBreak (c : Char) : Bool :=
  c = '\n' || c = '\r' || c = '\x85' || c = '\u2028' || c = '\u2029'

/-- Whether a character separates words on a line. -/
def isGap (c : Char) : Bool := c = ' ' || c = '\t'

/-- Whether a text is at a gap, at the end of a line or at its end. -/
def atSpace : List Char → Bool
  | [] => true
  | c :: _ => isGap c || isBreak c

/-- Whether a character may stand in a text at all. -/
def isAllowed (c : Char) : Bool :=
  let n := c.toNat
  n = 9 || n = 10 || n = 13 || (0x20 ≤ n && n ≤ 0x7E) || n = 0x85 || (0xA0 ≤ n && n ≤ 0xD7FF) ||
    (0xE000 ≤ n && n ≤ 0xFFFD && n ≠ 0xFEFF) || 0x10000 ≤ n

/-- Whether a character has a meaning inside brackets and braces. -/
def isFlowMark (c : Char) : Bool := c = ',' || c = '[' || c = ']' || c = '\x7b' || c = '\x7d'

/-- Whether a word cannot begin with a character, whatever follows it. -/
def isIndicator (c : Char) : Bool :=
  isFlowMark c || "#&*!|>\x27\x22%@\x60".toList.contains c

/-! ### Cursors -/

/-- A place in a text. -/
structure Cursor where
  /-- What comes next. -/
  rest : List Char
  line : Nat
  column : Nat
  /-- How many characters came before. -/
  index : Nat

namespace Cursor

/-- The start of a text. -/
def start (cs : List Char) : Cursor := ⟨cs, 0, 0, 0⟩

/-- The place after some characters of the same line. -/
def forward (c : Cursor) (n : Nat) : Cursor :=
  ⟨c.rest.drop n, c.line, c.column + n, c.index + n⟩

/-- The place after the end of a line; a carriage return and a new line are one end. -/
def nextLine (c : Cursor) : Cursor :=
  match c.rest with
  | '\r' :: '\n' :: rest => ⟨rest, c.line + 1, 0, c.index + 2⟩
  | _ :: rest => ⟨rest, c.line + 1, 0, c.index + 1⟩
  | [] => c

/-- What the end of a line stands for. -/
def lineEnd (c : Cursor) : List Char :=
  match c.rest with
  | d :: _ => if d = '\u2028' ∨ d = '\u2029' then [d] else ['\n']
  | [] => []

/-- Whether a line here starts with a mark that separates documents. -/
def atDocumentMark (c : Cursor) : Bool :=
  c.column = 0 &&
    match c.rest with
    | '-' :: '-' :: '-' :: rest => atSpace rest
    | '.' :: '.' :: '.' :: rest => atSpace rest
    | _ => false

end Cursor

/-! ### Gaps -/

/-- The blanks and line ends between two words. -/
structure Gap where
  /-- The blanks before the first line end. -/
  blanks : List Char := []
  /-- What the first line end stands for. -/
  first : List Char := []
  /-- What the further line ends stand for. -/
  further : List Char := []
  /-- Whether there is a line end. -/
  broken : Bool := false

/-- The text that a gap stands for: a single line end is a blank, further ones stay. -/
def Gap.text (g : Gap) : List Char :=
  if !g.broken then g.blanks
  else if g.first = ['\n'] then (if g.further.isEmpty then [' '] else g.further)
  else g.first ++ g.further

/-- Reads a gap.  Where indentation counts, a tab must not stand in for it: `indent` is the least
column of what continues a text. -/
def gap? (indent : Option Nat) : Nat → Gap → Cursor → Option (Gap × Cursor)
  | 0, g, c => some (g, c)
  | fuel + 1, g, c =>
    match c.rest with
    | [] => some (g, c)
    | d :: _ =>
      if isGap d then
        if g.broken && d = '\t' && indent.any (c.column < ·) then none
        else gap? indent fuel (if g.broken then g else { g with blanks := g.blanks ++ [d] })
          (c.forward 1)
      else if isBreak d then
        let g := if g.broken then { g with further := g.further ++ c.lineEnd }
          else { g with first := c.lineEnd, broken := true }
        gap? indent fuel g c.nextLine
      else some (g, c)

end RecordAccess.Yaml
