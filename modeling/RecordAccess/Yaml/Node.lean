import RecordAccess.Yaml.Token

/-!
# YAML values

A `Node` is what a document says before its scalars are given types: a scalar keeps its text and
whether it stood in quotes, and a mapping keeps its members in order, repetitions included.

`Node.read?` reads a text that holds at most one document.  A text without any holds nothing, which
is the same as an empty scalar.
-/

namespace RecordAccess.Yaml

/-- A value of a document. -/
inductive Node
  /-- A text; `plain` if it did not stand in quotes. -/
  | scalar (plain : Bool) (text : String)
  | sequence (items : List Node)
  | mapping (members : List (Node × Node))
deriving Inhabited

namespace Node

/-- The value that is left out. -/
def missing : Node := .scalar true ""

/-- Whether the next token is one of some. -/
def isNext (ts : List Token) (marks : List Token) : Bool :=
  match ts with
  | [] => false
  | t :: _ => marks.contains t

mutual

/-- Reads a value; `block` says whether it may be a block, and `dashes` whether the items of a
sequence may stand at the column of the mapping around it. -/
def node? (block dashes : Bool) : Nat → List Token → Option (Node × List Token)
  | 0, _ => none
  | fuel + 1, ts =>
    match ts with
    | .dash :: _ => if dashes then looseItems? fuel ts else none
    | .scalar plain text :: rest => some (.scalar plain text, rest)
    | .openBracket :: rest => (flowItems? fuel true rest).map fun (xs, r) => (.sequence xs, r)
    | .openBrace :: rest => (flowMembers? fuel true rest).map fun (ms, r) => (.mapping ms, r)
    | .sequenceStart :: rest =>
      if block then (blockItems? fuel rest).map fun (xs, r) => (.sequence xs, r) else none
    | .mappingStart :: rest =>
      if block then (blockMembers? fuel rest).map fun (ms, r) => (.mapping ms, r) else none
    | _ => none

/-- Reads a value, unless one of some tokens comes first, which leaves it out. -/
def nodeUnless? (block dashes : Bool) (marks : List Token) :
    Nat → List Token → Option (Node × List Token)
  | 0, _ => none
  | fuel + 1, ts => if isNext ts marks then some (missing, ts) else node? block dashes fuel ts

/-- Reads the items of an indented sequence and its end. -/
def blockItems? : Nat → List Token → Option (List Node × List Token)
  | 0, _ => none
  | fuel + 1, ts =>
    match ts with
    | .dash :: rest => do
      let (x, rest) ← nodeUnless? true false [.dash, .blockEnd] fuel rest
      let (xs, rest) ← blockItems? fuel rest
      pure (x :: xs, rest)
    | .blockEnd :: rest => some ([], rest)
    | _ => none

/-- Reads the items of a sequence that has no block of its own. -/
def looseItems? : Nat → List Token → Option (Node × List Token)
  | 0, _ => none
  | fuel + 1, ts =>
    match ts with
    | .dash :: rest => do
      let (x, rest) ← nodeUnless? true false [.dash, .key, .value, .blockEnd] fuel rest
      match ← looseItems? fuel rest with
      | (.sequence xs, rest) => pure (.sequence (x :: xs), rest)
      | (_, rest) => pure (.sequence [x], rest)
    | ts => some (.sequence [], ts)

/-- Reads the members of a block mapping and its end. -/
def blockMembers? : Nat → List Token → Option (List (Node × Node) × List Token)
  | 0, _ => none
  | fuel + 1, ts =>
    match ts with
    | .blockEnd :: rest => some ([], rest)
    | .key :: rest => do
      let (k, rest) ← nodeUnless? true true [.key, .value, .blockEnd] fuel rest
      let (v, rest) ← blockValue? fuel rest
      let (ms, rest) ← blockMembers? fuel rest
      pure ((k, v) :: ms, rest)
    | _ => none

/-- Reads the value of a member of a block mapping, if there is one. -/
def blockValue? : Nat → List Token → Option (Node × List Token)
  | 0, _ => none
  | fuel + 1, ts =>
    match ts with
    | .value :: rest => nodeUnless? true true [.key, .value, .blockEnd] fuel rest
    | ts => some (missing, ts)

/-- Reads the items of a sequence in brackets and the closing one. -/
def flowItems? : Nat → (first : Bool) → List Token → Option (List Node × List Token)
  | 0, _, _ => none
  | fuel + 1, first, ts =>
    match ts with
    | .closeBracket :: rest => some ([], rest)
    | ts => do
      let ts ← if first then some ts
        else match ts with
          | .comma :: rest => some rest
          | _ => none
      match ts with
      | .closeBracket :: rest => pure ([], rest)
      | .key :: rest => do
        -- a single member stands for a mapping
        let (k, rest) ← nodeUnless? false false [.value, .comma, .closeBracket] fuel rest
        let (v, rest) ← flowValue? .closeBracket fuel rest
        let (xs, rest) ← flowItems? fuel false rest
        pure (.mapping [(k, v)] :: xs, rest)
      | ts => do
        let (x, rest) ← node? false false fuel ts
        let (xs, rest) ← flowItems? fuel false rest
        pure (x :: xs, rest)

/-- Reads the value of a member in brackets or braces, if there is one. -/
def flowValue? (closing : Token) : Nat → List Token → Option (Node × List Token)
  | 0, _ => none
  | fuel + 1, ts =>
    match ts with
    | .value :: rest => nodeUnless? false false [.comma, closing] fuel rest
    | ts => some (missing, ts)

/-- Reads the members of a mapping in braces and the closing one. -/
def flowMembers? : Nat → (first : Bool) → List Token → Option (List (Node × Node) × List Token)
  | 0, _, _ => none
  | fuel + 1, first, ts =>
    match ts with
    | .closeBrace :: rest => some ([], rest)
    | ts => do
      let ts ← if first then some ts
        else match ts with
          | .comma :: rest => some rest
          | _ => none
      match ts with
      | .closeBrace :: rest => pure ([], rest)
      | .key :: rest => do
        let (k, rest) ← nodeUnless? false false [.value, .comma, .closeBrace] fuel rest
        let (v, rest) ← flowValue? .closeBrace fuel rest
        let (ms, rest) ← flowMembers? fuel false rest
        pure ((k, v) :: ms, rest)
      | ts => do
        let (k, rest) ← node? false false fuel ts
        let (ms, rest) ← flowMembers? fuel false rest
        pure ((k, missing) :: ms, rest)

end

/-- Reads the one document of a text, if there is one. -/
def document? (ts : List Token) : Option Node :=
  let ts := ts.dropWhile (· = .documentEnd)
  let ts := match ts with
    | .documentStart :: rest => rest
    | ts => ts
  let marks : List Token := [.documentStart, .documentEnd]
  if ts.isEmpty then some missing
  else do
    let (n, rest) ← nodeUnless? true false marks (4 * ts.length + 4) ts
    if (rest.dropWhile (· = .documentEnd)).isEmpty then some n else none

/-- Reads a text that holds at most one document. -/
def read? (text : String) : Option Node := (Token.scan? text.toList).bind document?

end Node

end RecordAccess.Yaml
