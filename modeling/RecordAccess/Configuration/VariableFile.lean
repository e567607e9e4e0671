import RecordAccess.Configuration.Source
import RecordAccess.Text.Blank

/-!
# Files of variables

A file of variables has one `NAME=value` a line.  A value may be quoted, may go on over several
lines inside quotes, and may name other variables after a dollar sign; after a blank, `#` starts a
comment.

`Environment.withFile` adds the variables of such a file to an environment.  A variable that is set
already stays as it is, and everything after a malformed line is left out.
-/

namespace RecordAccess.VariableFile

/-! ### Lines -/

/-- Where in a line a character stands. -/
inductive Place
  | word
  | escape
  | strong
  | strongEscape
  | weak
  | weakEscape
  | blank
deriving DecidableEq

/-- The place after a character; a comment has none. -/
def Place.next? (c : Char) : Place → Option Place
  | .blank =>
    if c = '#' then none
    else if c = '\\' then some .escape
    else if c = '\x22' then some .weak
    else if c = '\x27' then some .strong
    else some .word
  | .escape => some .word
  | .word =>
    if Text.isBlank c && c ≠ '\n' && c ≠ '\r' then some .blank
    else if c = '\\' then some .escape
    else if c = '\x22' then some .weak
    else if c = '\x27' then some .strong
    else some .word
  | .weak => if c = '\\' then some .weakEscape else if c = '\x22' then some .word else some .weak
  | .weakEscape => some .weak
  | .strong =>
    if c = '\\' then some .strongEscape else if c = '\x27' then some .word else some .strong
  | .strongEscape => some .strong

/-- Reads a line up to its comment, if it has one: what is read, and the place at its end, which a
comment does not have. -/
def scan : Place → List Char → List Char × Option Place
  | p, [] => ([], some p)
  | p, c :: rest =>
    match p.next? c with
    | none => ([], none)
    | some q =>
      let (read, last) := scan q rest
      (c :: read, last)

/-- The lines of a text, each with its line end. -/
def rawLines : List Char → List (List Char)
  | [] => []
  | '\n' :: rest => ['\n'] :: rawLines rest
  | c :: rest =>
    match rawLines rest with
    | [] => [[c]]
    | line :: lines => (c :: line) :: lines

/-- Whether a text is a comment from its start. -/
def isComment (cs : List Char) : Bool := (Text.trimStart cs).head? = some '#'

/-- Joins the lines that quotes keep together.  A text that ends within quotes ends in nothing. -/
def logicalLines (before : List Char) (p : Place) : List (List Char) → List (Option (List Char))
  | [] => if p = .word then [] else [none]
  | line :: lines =>
    if isComment (before ++ line) then some [] :: logicalLines [] .word lines
    else
      match scan p line with
      | (read, none) => some (before ++ read) :: logicalLines [] .word lines
      | (_, some .word) => some (before ++ line) :: logicalLines [] .word lines
      | (_, some q) => logicalLines (before ++ line) q lines

/-! ### Values -/

/-- How a value looks up another variable at the moment. -/
inductive Lookup
  | off
  /-- After a dollar sign. -/
  | bare (name : List Char)
  /-- After a dollar sign and a brace. -/
  | braced (name : List Char)
deriving DecidableEq

/-- A value that is being read. -/
structure Reading where
  output : List Char := []
  strong : Bool := false
  weak : Bool := false
  escaped : Bool := false
  /-- Whether only blanks and a comment may follow. -/
  ended : Bool := false
  lookup : Lookup := .off

/-- Reads the next character of a value outside of comments; none means that it is malformed. -/
def Reading.next? (value : String → String) (r : Reading) (c : Char) : Option Reading :=
  let push (cs : List Char) : Reading := { r with output := r.output ++ cs, lookup := .off }
  let found (name : List Char) : List Char := (value (String.ofList name)).toList
  if r.ended then if c = ' ' || c = '\t' then some r else none
  else if r.escaped then
    if "\\\x27\x22$ ".toList.contains c then some { push [c] with escaped := false }
    else if c = 'n' then some { push ['\n'] with escaped := false }
    else none
  else if r.strong then
    if c = '\x27' then some { r with strong := false } else some (push [c])
  else
    match r.lookup with
    | .bare name =>
      if c.isAlphanum || 128 ≤ c.toNat then some { r with lookup := .bare (name ++ [c]) }
      else if c = '\x7b' && name.isEmpty then some { r with lookup := .braced [] }
      else if c = '$' then some { push (found name) with lookup := .bare [] }
      else some (push (found name ++ [c]))
    | .braced name =>
      if c = '\x7d' then some (push (found name))
      else some { r with lookup := .braced (name ++ [c]) }
    | .off =>
      if c = '$' then some { r with lookup := .bare [] }
      else if r.weak then
        if c = '\x22' then some { r with weak := false }
        else if c = '\\' then some { r with escaped := true }
        else some (push [c])
      else if c = '\x27' then some { r with strong := true }
      else if c = '\x22' then some { r with weak := true }
      else if c = '\\' then some { r with escaped := true }
      else if c = ' ' || c = '\t' then some { r with ended := true }
      else some (push [c])

/-- Reads a value to its end. -/
def Reading.finish? (value : String → String) : Reading → List Char → Option String
  | r, [] =>
    match r.lookup with
    | .braced _ => none
    | .bare name =>
      if r.strong || r.weak then none
      else some (String.ofList (r.output ++ (value (String.ofList name)).toList))
    | .off => if r.strong || r.weak then none else some (String.ofList r.output)
  | r, c :: rest =>
    if r.ended && c = '#' then some (String.ofList r.output)
    else
      match r.next? value c with
      | none => none
      | some r => finish? value r rest

/-! ### Variables -/

/-- Splits the name of a variable off a line. -/
def name? (cs : List Char) : Option (String × List Char) :=
  let isNameChar (c : Char) : Bool := c.isAlphanum || c = '_' || c = '.'
  match cs with
  | c :: _ =>
    if c.isAlpha || c = '_' then
      some (String.ofList (cs.takeWhile isNameChar), Text.trimStart (cs.dropWhile isNameChar))
    else none
  | [] => none

/-- Splits the name of a variable and the sign after it off a line; `export` may stand in front. -/
def assigned? (cs : List Char) : Option (String × List Char) := do
  let (name, rest) ← name? cs
  match rest with
  | '=' :: rest => pure (name, Text.trimStart rest)
  | rest =>
    if name = "export" then
      let (name, rest) ← name? rest
      match rest with
      | '=' :: rest => pure (name, Text.trimStart rest)
      | _ => none
    else none

/-- What a line says. -/
inductive Line
  | blank
  | malformed
  | sets (name value : String)

/-- Reads a line. -/
def Line.read (value : String → String) (cs : List Char) : Line :=
  let cs := Text.trim cs
  if cs.isEmpty || isComment cs then .blank
  else
    match assigned? cs with
    | none => .malformed
    | some (name, rest) =>
      if isComment rest then .sets name ""
      else
        match Reading.finish? value {} rest with
        | some v => .sets name v
        | none => .malformed

/-- Adds the variables of some lines to an environment.  `stored` has the variables of the lines
before, which a value may name even if the environment has others. -/
def addLines (environment stored : Environment) : List (Option (List Char)) → Environment
  | [] => environment
  | none :: _ => environment
  | some cs :: rest =>
    let value (name : String) : String :=
      ((environment.get? name).or (stored.get? name)).getD ""
    match Line.read value cs with
    | .blank => addLines environment stored rest
    | .malformed => environment
    | .sets name v =>
      let environment :=
        if (environment.get? name).isSome then environment else environment ++ [(name, v)]
      addLines environment ((name, v) :: stored) rest

end RecordAccess.VariableFile

namespace RecordAccess.Environment

/-- The environment with the variables of a file. -/
def withFile (e : Environment) (text : String) : Environment :=
  let cs := match text.toList with
    | c :: rest => if c = '\ufeff' then rest else c :: rest
    | [] => []
  VariableFile.addLines e [] (VariableFile.logicalLines [] .word (VariableFile.rawLines cs))

end RecordAccess.Environment
