import RecordAccess.CommandLine.Option

/-!
# Arguments

Arguments are split into what stands before the name of the command, the command and what stands
after it (`Arguments.read`).  On either side an option may be given once.  The value of an option
follows it, or is attached to it; an option before which no value came is a mistake.

Help and the version are asked for on the way, so a mistake in front of them is found first.
-/

namespace RecordAccess.CommandLine

/-- Why arguments do not lead to a command. -/
inductive Stop
  | misuse
  | version (command : Option CommandName)
  /-- Help for the program or for a command, brief or full. -/
  | help (command : Option CommandName) (full : Bool)
deriving DecidableEq

/-! ### Single arguments -/

/-- The shapes of an argument. -/
inductive Shape
  /-- Two dashes, after which no option follows. -/
  | terminator
  | long (name : String) (value : Option String)
  | short (letter : Char) (rest : List Char)
  | word
deriving DecidableEq

/-- The shape of an argument; a lone dash is a word. -/
def Shape.of (argument : String) : Shape :=
  match argument.toList with
  | ['-', '-'] => .terminator
  | '-' :: '-' :: cs =>
    let name := cs.takeWhile (· ≠ '=')
    .long (String.ofList name)
      (if name.length < cs.length then some (String.ofList (cs.drop (name.length + 1))) else none)
  | '-' :: c :: rest => .short c rest
  | _ => .word

/-! ### One side of the command -/

/-- The last option, as long as it is not known to be complete. -/
inductive Pending
  | nothing
  /-- The value has not come yet. -/
  | missing (spec : OptionSpec)
  /-- The value has come but is not checked yet. -/
  | value (spec : OptionSpec) (text : String)

/-- What one side of the command gives. -/
structure Side where
  /-- The given options by their long names; a switch has an empty value. -/
  given : List (String × String) := []
  pending : Pending := .nothing

namespace Side

/-- Whether the next argument is the value of an option. -/
def wantsValue (s : Side) : Bool :=
  match s.pending with
  | .missing _ => true
  | _ => false

/-- Adds an option. -/
def accept (s : Side) (o : OptionSpec) (value : String) : Except Stop Side :=
  if s.given.any (fun g => g.1 = o.long) || !o.accepts value then .error .misuse
  else .ok { given := s.given ++ [(o.long, value)], pending := .nothing }

/-- Checks the last option. -/
def settle (s : Side) : Except Stop Side :=
  match s.pending with
  | .nothing => .ok s
  | .missing _ => .error .misuse
  | .value o v => ({ s with pending := .nothing } : Side).accept o v

/-- Adds an option with the value that is attached to it, if one is. -/
def add (s : Side) (o : OptionSpec) (attached : Option String) : Except Stop Side := do
  let s ← s.settle
  match o.value, attached with
  | none, none => s.accept o ""
  | none, some _ => .error .misuse
  | some _, some v => s.accept o v
  | some _, none => .ok { s with pending := .missing o }

/-- Stops, unless the last option is mistaken. -/
def stop (s : Side) (why : Stop) : Except Stop Side := do
  let _ ← s.settle
  .error why

/-- Adds the option with a long name. -/
def addLong (s : Side) (scope : Option CommandName) (options : List OptionSpec) (name : String)
    (value : Option String) : Except Stop Side :=
  if name = "help" || name = "version" then
    if value.isSome then .error .misuse
    else s.stop (if name = "help" then .help scope true else .version scope)
  else
    match options.find? fun o => o.long = name with
    | none => .error .misuse
    | some o => s.add o value

/-- Adds the option with a letter; what follows the letter is its value. -/
def addShort (s : Side) (scope : Option CommandName) (options : List OptionSpec) (letter : Char)
    (rest : List Char) : Except Stop Side :=
  if letter = 'h' then s.stop (.help scope false)
  else if letter = 'V' then s.stop (.version scope)
  else
    match options.find? fun o => o.short = some letter with
    | none => .error .misuse
    | some o =>
      match rest with
      | [] => s.add o none
      | '=' :: value => s.add o (some (String.ofList value))
      | value => s.add o (some (String.ofList value))

/-- Takes a word as the value of the last option. -/
def takeValue (s : Side) (word : String) : Side :=
  match s.pending with
  | .missing o => { s with pending := .value o word }
  | _ => s

end Side

/-! ### Both sides -/

/-- Arguments split at the command. -/
structure Arguments where
  before : Side
  command : CommandName
  after : Side
  /-- The arguments that are known by their places. -/
  words : List String

namespace Arguments

/-- The help that is asked for by name. -/
def helpFor : List String → Stop
  | [] => .help none true
  | [name] => match CommandName.ofText? name with
    | some c => .help (some c) true
    | none => if name = "help" then .help none true else .misuse
  | _ => .misuse

/-- Reads the arguments up to the command. -/
def readBefore (s : Side) : List String → Except Stop (Side × CommandName × List String)
  | [] => .error .misuse
  | a :: rest =>
    if s.wantsValue then
      match Shape.of a with
      | .word => readBefore (s.takeValue a) rest
      | _ => .error .misuse
    else if a = "help" then .error (helpFor rest)
    else
      match CommandName.ofText? a, Shape.of a with
      | some c, _ => .ok (s, c, rest)
      | none, .long name value =>
        match s.addLong none globalOptions name value with
        | .ok s => readBefore s rest
        | .error e => .error e
      | none, .short letter value =>
        match s.addShort none globalOptions letter value with
        | .ok s => readBefore s rest
        | .error e => .error e
      | none, _ => .error .misuse

/-- Adds words to those that came before. -/
def addWords (c : CommandName) (words more : List String) : Except Stop (List String) :=
  let words := words ++ more
  if words.length ≤ c.positional?.toList.length then .ok words else .error .misuse

/-- Reads the arguments after the command. -/
def readAfter (c : CommandName) (s : Side) (words : List String) :
    List String → Except Stop (Side × List String)
  | [] => (s.settle).map fun s => (s, words)
  | a :: rest =>
    match Shape.of a with
    | .terminator => do
      let s ← s.settle
      pure (s, ← addWords c words rest)
    | .word =>
      if s.wantsValue then readAfter c (s.takeValue a) words rest
      else
        match addWords c words [a] with
        | .ok words => readAfter c s words rest
        | .error e => .error e
    | .long name value =>
      match s.addLong (some c) (c.options ++ globalOptions) name value with
      | .ok s => readAfter c s words rest
      | .error e => .error e
    | .short letter value =>
      match s.addShort (some c) (c.options ++ globalOptions) letter value with
      | .ok s => readAfter c s words rest
      | .error e => .error e

/-- Splits arguments at the command. -/
def read (arguments : List String) : Except Stop Arguments := do
  let (before, command, rest) ← readBefore {} arguments
  let (after, words) ← readAfter command {} [] rest
  pure ⟨← before.settle, command, after, words⟩

end Arguments

end RecordAccess.CommandLine
