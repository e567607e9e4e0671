import RecordAccess.Configuration.Setting
import RecordAccess.Decimal.Text
import RecordAccess.Json.Reader
import RecordAccess.Yaml.Node
import RecordAccess.Yaml.Scalar

/-!
# Where settings come from

Settings are read from the text of a file, as JSON or YAML, and from variables of the environment.
The result is a layer: what each name or path of names is set to.
-/

namespace RecordAccess

/-- The variables of an environment, by name. -/
abbrev Environment := List (String × String)

/-- The value of a variable. -/
def Environment.get? (e : Environment) (name : String) : Option String := e.lookup name

namespace Setting

/-! ### JSON -/

mutual

/-- The setting that a JSON value stands for.  An integer that needs more than 63 bits becomes a
double. -/
def ofJson : Json → Setting
  | .null => .nothing
  | .bool b => .bool b
  | .number (.integer i) =>
    if i < Int.pow 2 63 then .integer i
    else ((Decimal.Binary64.ofNat? i.toNat).map .double).getD .undefined
  | .number (.double d) => .double d
  | .string t => .text t
  | .array xs => .list (ofJsonItems xs)
  | .object ms => .table (ofJsonMembers ms)

/-- The settings that the items of an array stand for. -/
def ofJsonItems : List Json → List Setting
  | [] => []
  | x :: xs => ofJson x :: ofJsonItems xs

/-- The settings that the members of an object stand for. -/
def ofJsonMembers : List (String × Json) → List (String × Setting)
  | [] => []
  | (name, value) :: ms => (name, ofJson value) :: ofJsonMembers ms

end

/-- Reads a JSON object. -/
def layerOfJson? (text : String) : Option (List (String × Setting)) := do
  let j ← (Json.read? text).bind Json.untyped?
  (j.members?).map ofJsonMembers

/-! ### YAML -/

/-- The integer of 64 bits that digits of a base stand for; a sign may stand in front. -/
def integerOf? (base : Nat) (cs : List Char) : Option Int := do
  let (negative, ds) := Decimal.Binary64.splitSign cs
  let n ← Yaml.digitsOf? base ds
  let i : Int := if negative then -n else n
  if -Int.pow 2 63 ≤ i ∧ i < Int.pow 2 63 then some i else none

/-- The integer that a scalar without quotes stands for.  A base may be marked, and after a plus
sign there may be another sign. -/
def plainInteger? (cs : List Char) : Option Int :=
  match cs with
  | '0' :: 'x' :: ds => integerOf? 16 ds
  | '0' :: 'o' :: ds => integerOf? 8 ds
  | '+' :: ds => integerOf? 10 ds
  | cs => integerOf? 10 cs

/-- The number that is no integer and that a scalar without quotes stands for. -/
def plainNumber? (t : String) : Option Setting :=
  let (negative, cs) := Decimal.Binary64.splitSign t.toList
  let word := Text.lowerCase (String.ofList cs)
  if word = "inf" ∨ word = "infinity" then some (.infinite negative)
  else if word = "nan" then some .undefined
  else (Decimal.Binary64.parts? cs).map fun (digits, exponent) =>
    ((Decimal.Binary64.ofDecimal? negative digits exponent).map .double).getD (.infinite negative)

/-- Whether a scalar without quotes is marked as infinite or undefined, which no setting may be. -/
def isMarkedUnbounded (t : String) : Bool :=
  [".inf", ".Inf", ".INF", "+.inf", "+.Inf", "+.INF", "-.inf", "-.Inf", "-.INF", ".nan",
    ".NAN"].contains t

/-- The setting that a scalar without quotes stands for. -/
def ofPlain? (t : String) : Option Setting :=
  match plainInteger? t.toList with
  | some i => some (.integer i)
  | none =>
    if t = "" || t = "~" || t = "null" then some .nothing
    else if t = "true" then some (.bool true)
    else if t = "false" then some (.bool false)
    else if isMarkedUnbounded t then none
    else some ((plainNumber? t).getD (.text t))

/-- The name that a key stands for; integers are written in the usual way. -/
def nameOfKey? : Yaml.Node → Option String
  | .scalar true t => some (((plainInteger? t.toList).map Decimal.intText).getD t)
  | .scalar false t => some t
  | _ => none

mutual

/-- The setting that a YAML value stands for. -/
def ofYaml? : Yaml.Node → Option Setting
  | .scalar true t => ofPlain? t
  | .scalar false t => some (.text t)
  | .sequence xs => (ofYamlItems? xs).map .list
  | .mapping ms => (ofYamlMembers? ms).map fun ms => .table (Text.sortedTable ms)

/-- The settings that the items of a sequence stand for. -/
def ofYamlItems? : List Yaml.Node → Option (List Setting)
  | [] => some []
  | x :: xs => do
    let s ← ofYaml? x
    let ss ← ofYamlItems? xs
    pure (s :: ss)

/-- The settings that the members of a mapping stand for. -/
def ofYamlMembers? : List (Yaml.Node × Yaml.Node) → Option (List (String × Setting))
  | [] => some []
  | (k, v) :: ms => do
    let name ← nameOfKey? k
    let s ← ofYaml? v
    let ss ← ofYamlMembers? ms
    pure ((name, s) :: ss)

end

/-- Reads a YAML mapping; a text without a document has no settings. -/
def layerOfYaml? (text : String) : Option (List (String × Setting)) := do
  let tokens ← Yaml.Token.scan? text.toList
  if tokens.isEmpty then some []
  else
    match ← ofYaml? (← Yaml.Node.document? tokens) with
    | .table ms => some ms
    | _ => none

/-! ### The environment -/

/-- What variables with these letters in front set. -/
def variableMark : List Char := "sharing__".toList

/-- Replaces every pair of low lines by a dot. -/
def dotted : List Char → List Char
  | '_' :: '_' :: rest => '.' :: dotted rest
  | c :: rest => c :: dotted rest
  | [] => []

/-- The path that a variable sets, if it sets one. -/
def pathOfVariable? (name : String) : Option String :=
  let cs := (Text.lowerCase name).toList
  if variableMark.isPrefixOf cs then some (String.ofList (dotted (cs.drop variableMark.length)))
  else none

/-- The layer of settings in an environment. -/
def layerOfEnvironment (e : Environment) : List (String × Setting) :=
  Text.sortedTable (e.filterMap fun v => (pathOfVariable? v.1).map fun p => (p, .text v.2))

end Setting

end RecordAccess
