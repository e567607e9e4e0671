import RecordAccess.Json.Reader
import RecordAccess.Yaml.Character

/-!
# Tokens of YAML

`Token.scan?` splits a text into tokens.  Indentation becomes tokens of its own: a block starts with
`sequenceStart` or `mappingStart` and ends with `blockEnd`.  A key is known to be one only when its
colon comes; until then the scanner remembers the place where a key may have begun
(`PossibleKey`), and puts the tokens for it there afterwards.

Anchors, tags and block scalars are not part of the language that is read.
-/

namespace RecordAccess.Yaml

/-! ### Tokens -/

/-- A piece of a document. -/
inductive Token
  /-- A text; `plain` if it is not in quotes. -/
  | scalar (plain : Bool) (text : String)
  | sequenceStart
  | mappingStart
  | blockEnd
  | openBracket
  | closeBracket
  | openBrace
  | closeBrace
  | dash
  | comma
  | key
  | value
  | documentStart
  | documentEnd
deriving DecidableEq, Inhabited

/-! ### Scalars -/

/-- Reads a word of a text without quotes; inside brackets and braces it ends at their marks. -/
def word? (flow : Bool) : List Char → Option (List Char)
  | [] => some []
  | c :: rest =>
    if isGap c || isBreak c then some []
    else if flow && c = ':' && (rest.head?.any fun d => isFlowMark d || d = '?') then none
    else if c = ':' && atSpace rest then some []
    else if flow && isFlowMark c then some []
    else (word? flow rest).map (c :: ·)

/-- Reads a text without quotes; also says whether it ends with a line end that was skipped. -/
def plain? (flow : Bool) (indent : Nat) :
    Nat → (text : List Char) → Gap → Cursor → Option (List Char × Bool × Cursor)
  | 0, text, g, c => some (text, g.broken, c)
  | fuel + 1, text, g, c =>
    if c.atDocumentMark || c.rest.head? = some '#' then some (text, g.broken, c)
    else do
      let w ← word? flow c.rest
      let c := c.forward w.length
      let (text, g) := if w.isEmpty then (text, g) else (text ++ g.text ++ w, {})
      if atSpace c.rest && !c.rest.isEmpty then
        let (g, c) ← gap? (some indent) (c.rest.length + 1) g c
        if !flow && c.column < indent then pure (text, g.broken, c)
        else plain? flow indent fuel text g c
      else pure (text, g.broken, c)

/-- The character of an escape with one letter. -/
def escaped? (c : Char) : Option Char :=
  match c with
  | '0' => some '\x00'
  | 'a' => some '\x07'
  | 'b' => some '\x08'
  | 't' => some '\t'
  | '\t' => some '\t'
  | 'n' => some '\n'
  | 'v' => some '\x0b'
  | 'f' => some '\x0c'
  | 'r' => some '\r'
  | 'e' => some '\x1b'
  | ' ' => some ' '
  | '\x22' => some '\x22'
  | '/' => some '/'
  | '\\' => some '\\'
  | 'N' => some '\x85'
  | '_' => some '\xa0'
  | 'L' => some '\u2028'
  | 'P' => some '\u2029'
  | _ => none

/-- How many hexadecimal digits follow a letter of an escape. -/
def escapeLength? (c : Char) : Option Nat :=
  match c with
  | 'x' => some 2
  | 'u' => some 4
  | 'U' => some 8
  | _ => none

/-- The character with a code in hexadecimal digits. -/
def coded? (ds : List Char) : Option Char := do
  let n ← ds.foldlM (fun n d => (Json.Reader.hexValue? d).map (16 * n + ·)) 0
  if n < 0xD800 ∨ (0xDFFF < n ∧ n ≤ 0x10FFFF) then some (Char.ofNat n) else none

/-- Reads what stands between quotes up to the next gap or the closing quote; also says whether it
ends with an escaped line end. -/
def quotedWord? (single : Bool) : Nat → Cursor → Option (List Char × Bool × Cursor)
  | 0, _ => none
  | fuel + 1, c =>
    match c.rest with
    | [] => some ([], false, c)
    | d :: rest =>
      if isGap d || isBreak d then some ([], false, c)
      else if single then
        if d = '\x27' then
          if rest.head? = some '\x27' then
            (quotedWord? single fuel (c.forward 2)).map fun (w, r) => ('\x27' :: w, r)
          else some ([], false, c)
        else (quotedWord? single fuel (c.forward 1)).map fun (w, r) => (d :: w, r)
      else if d = '\x22' then some ([], false, c)
      else if d = '\\' then
        match rest with
        | [] => none
        | e :: more =>
          if isBreak e then some ([], true, (c.forward 1).nextLine)
          else
            match escapeLength? e with
            | some n =>
              if more.length < n then none
              else do
                let code ← coded? (more.take n)
                let (w, r) ← quotedWord? single fuel (c.forward (2 + n))
                pure (code :: w, r)
            | none => do
              let code ← escaped? e
              let (w, r) ← quotedWord? single fuel (c.forward 2)
              pure (code :: w, r)
      else (quotedWord? single fuel (c.forward 1)).map fun (w, r) => (d :: w, r)

/-- Reads what stands between quotes, after the opening one, and the closing quote. -/
def quoted? (single : Bool) : Nat → Cursor → Option (List Char × Cursor)
  | 0, _ => none
  | fuel + 1, c =>
    if c.atDocumentMark || c.rest.isEmpty then none
    else do
      let (w, escapedEnd, c) ← quotedWord? single (c.rest.length + 1) c
      if !escapedEnd && !atSpace c.rest then pure (w, c.forward 1)
      else
        let start : Gap := if escapedEnd then { broken := true } else {}
        let (g, c) ← gap? none (c.rest.length + 1) start c
        let (tail, c) ← quoted? single fuel c
        pure (w ++ g.text ++ tail, c)

/-! ### The scanner -/

/-- A place where a key may have begun. -/
structure PossibleKey where
  /-- How many tokens came before. -/
  token : Nat
  /-- Whether nothing but a key can stand there. -/
  required : Bool
  line : Nat
  column : Nat
  index : Nat

/-- What the scanner knows between two tokens. -/
structure Scanner where
  cursor : Cursor
  tokens : Array Token := #[]
  /-- The column of the current block; none before the first. -/
  indent : Option Nat := none
  /-- The columns of the enclosing blocks. -/
  outer : List (Option Nat) := []
  /-- Whether a key may begin here. -/
  allowKey : Bool := true
  /-- The possible key of the current collection. -/
  pending : Option PossibleKey := none
  /-- The possible keys of the collections around brackets and braces. -/
  enclosing : List (Option PossibleKey) := []

namespace Scanner

/-- Whether the scanner is inside brackets or braces. -/
def inFlow (s : Scanner) : Bool := !s.enclosing.isEmpty

/-- Adds a token. -/
def push (s : Scanner) (t : Token) : Scanner := { s with tokens := s.tokens.push t }

/-- Moves on by characters of the same line. -/
def skip (s : Scanner) (n : Nat) : Scanner := { s with cursor := s.cursor.forward n }

/-- Drops a possible key that a new line or too long a text has ruled out. -/
def dropStale? (s : Scanner) : Option Scanner :=
  let stale (k : PossibleKey) : Bool :=
    k.line < s.cursor.line || k.index + 1024 < s.cursor.index
  if s.pending.any fun k => stale k && k.required then none
  else some { s with pending := s.pending.filter fun k => !stale k }

/-- Drops the possible key of the current collection. -/
def dropKey? (s : Scanner) : Option Scanner :=
  if s.pending.any (·.required) then none else some { s with pending := none }

/-- Remembers that a key may begin here. -/
def noteKey? (s : Scanner) : Option Scanner :=
  if !s.allowKey then some s
  else do
    let s ← s.dropKey?
    let c := s.cursor
    pure { s with
      pending := some ⟨s.tokens.size, !s.inFlow && s.indent = some c.column, c.line, c.column,
        c.index⟩ }

/-- Whether a column lies further in than the current block. -/
def isDeeper (s : Scanner) (column : Nat) : Bool := s.indent.all (· < column)

/-- Opens a block at a column, unless it is open; its token goes to a place. -/
def openBlock (s : Scanner) (column place : Nat) (t : Token) : Scanner :=
  if s.inFlow || !s.isDeeper column then s
  else { s with
    tokens := s.tokens.insertIdxIfInBounds place t
    indent := some column
    outer := s.indent :: s.outer }

/-- Closes the blocks that lie further in than a column; without one, all. -/
def closeBlocks (column : Option Nat) : Nat → Scanner → Scanner
  | 0, s => s
  | fuel + 1, s =>
    match s.indent with
    | none => s
    | some i =>
      if column.all (· < i) then
        closeBlocks column fuel
          { s.push .blockEnd with indent := s.outer.headD none, outer := s.outer.tail }
      else s

/-- Closes the blocks that end before the cursor. -/
def closeToCursor (s : Scanner) : Scanner :=
  if s.inFlow then s else closeBlocks (some s.cursor.column) (s.outer.length + 1) s

/-- Goes to the next token: over blanks, comments and line ends. -/
def toToken : Nat → Scanner → Scanner
  | 0, s => s
  | fuel + 1, s =>
    match s.cursor.rest with
    | [] => s
    | d :: rest =>
      if d = ' ' || (d = '\t' && (s.inFlow || !s.allowKey)) then toToken fuel (s.skip 1)
      else if d = '#' then
        toToken fuel (s.skip (1 + (rest.takeWhile fun c => !isBreak c).length))
      else if isBreak d then
        toToken fuel { s with cursor := s.cursor.nextLine, allowKey := s.allowKey || !s.inFlow }
      else s

/-- Reads the colon that ends a key. -/
def value? (s : Scanner) : Option Scanner :=
  match s.pending with
  | some k =>
    let s := { s with tokens := s.tokens.insertIdxIfInBounds k.token .key }
    let s := s.openBlock k.column k.token .mappingStart
    some { (s.push .value).skip 1 with pending := none, allowKey := false }
  | none =>
    if !s.inFlow && !s.allowKey then none
    else
      let s := s.openBlock s.cursor.column s.tokens.size .mappingStart
      some { (s.push .value).skip 1 with allowKey := !s.inFlow }

/-- Reads a question mark, which starts a key. -/
def key? (s : Scanner) : Option Scanner := do
  if !s.inFlow && !s.allowKey then none
  else
    let s ← (s.openBlock s.cursor.column s.tokens.size .mappingStart).dropKey?
    pure { (s.push .key).skip 1 with allowKey := !s.inFlow }

/-- Reads a dash, which starts an item of a sequence. -/
def dash? (s : Scanner) : Option Scanner := do
  if !s.inFlow && !s.allowKey then none
  else
    let s ← (s.openBlock s.cursor.column s.tokens.size .sequenceStart).dropKey?
    pure { (s.push .dash).skip 1 with allowKey := true }

/-- Reads an opening bracket or brace. -/
def open? (s : Scanner) (t : Token) : Option Scanner := do
  let s ← s.noteKey?
  pure { (s.push t).skip 1 with
    pending := none, enclosing := s.pending :: s.enclosing, allowKey := true }

/-- Reads a closing bracket or brace. -/
def close? (s : Scanner) (t : Token) : Option Scanner := do
  let s ← s.dropKey?
  pure { (s.push t).skip 1 with
    pending := s.enclosing.headD none, enclosing := s.enclosing.tail, allowKey := false }

/-- Reads a comma. -/
def comma? (s : Scanner) : Option Scanner := do
  let s ← s.dropKey?
  pure { (s.push .comma).skip 1 with allowKey := true }

/-- Reads a mark that separates documents. -/
def documentMark? (s : Scanner) (t : Token) : Option Scanner := do
  let s ← (closeBlocks none (s.outer.length + 1) s).dropKey?
  pure { (s.push t).skip 3 with allowKey := false }

/-- Reads a text in quotes. -/
def quotedScalar? (s : Scanner) (single : Bool) : Option Scanner := do
  let s ← s.noteKey?
  let c := s.cursor.forward 1
  let (text, c) ← quoted? single (c.rest.length + 1) c
  pure { s.push (.scalar false (String.ofList text)) with cursor := c, allowKey := false }

/-- Reads a text without quotes. -/
def plainScalar? (s : Scanner) : Option Scanner := do
  let s ← s.noteKey?
  let indent := s.indent.elim 0 (· + 1)
  let (text, broken, c) ← plain? s.inFlow indent (s.cursor.rest.length + 1) [] {} s.cursor
  pure { s.push (.scalar true (String.ofList text)) with cursor := c, allowKey := broken }

/-- Reads one token at the cursor. -/
def token? (s : Scanner) : Option Scanner :=
  match s.cursor.rest with
  | [] => none
  | c :: rest =>
    if s.cursor.atDocumentMark then
      s.documentMark? (if c = '-' then .documentStart else .documentEnd)
    else if s.cursor.column = 0 && c = '%' then none
    else if c = '[' then s.open? .openBracket
    else if c = '\x7b' then s.open? .openBrace
    else if c = ']' then s.close? .closeBracket
    else if c = '\x7d' then s.close? .closeBrace
    else if c = ',' then s.comma?
    else if c = '-' && atSpace rest then s.dash?
    else if c = '?' && (s.inFlow || atSpace rest) then s.key?
    else if c = ':' && (s.inFlow || atSpace rest) then s.value?
    else if c = '\x27' then s.quotedScalar? true
    else if c = '\x22' then s.quotedScalar? false
    else if isIndicator c || isGap c then none
    else s.plainScalar?

/-- Reads tokens up to the end of the text. -/
def run? : Nat → Scanner → Option Scanner
  | 0, _ => none
  | fuel + 1, s => do
    let s ← (toToken (s.cursor.rest.length + 1) s).dropStale?
    let s := s.closeToCursor
    if s.cursor.rest.isEmpty then (closeBlocks none (s.outer.length + 1) s).dropKey?
    else
      let s ← s.token?
      run? fuel s

end Scanner

/-- Splits a text into tokens. -/
def Token.scan? (cs : List Char) : Option (List Token) :=
  -- a mark of the byte order may stand in front
  let cs := match cs with
    | '\ufeff' :: rest => rest
    | cs => cs
  if !cs.all isAllowed then none
  else (Scanner.run? (cs.length + 2) { cursor := .start cs }).map (·.tokens.toList)

end RecordAccess.Yaml
