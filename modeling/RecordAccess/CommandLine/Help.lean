import RecordAccess.CommandLine.Option
import RecordAccess.Configuration.Source
import RecordAccess.Text.Width

/-!
# Help

Help is written from the lists of options.  Brief help has one line for each option; full help puts
the explanation below the option and says what each choice means.
-/

namespace RecordAccess.CommandLine.Help

/-- A line of help about an option or an argument. -/
structure Entry where
  /-- How it is written. -/
  usage : String
  help : String
  /-- Further remarks, each in brackets. -/
  remarks : List String := []
  /-- The choices that are explained one by one. -/
  explained : List Choice := []

/-- Blanks. -/
def blanks (n : Nat) : String := String.ofList (List.replicate n ' ')

/-- The text filled with blanks up to a width. -/
def padded (width : Nat) (t : String) : String := t ++ blanks (width - t.length)

/-! ### Entries -/

/-- How an option is written. -/
def optionUsage (o : OptionSpec) : String :=
  let letter := match o.short with
    | some c => "-" ++ String.singleton c ++ ", "
    | none => "    "
  let value := match o.value with
    | some v => " <" ++ v.name ++ ">"
    | none => ""
  letter ++ "--" ++ o.long ++ value

/-- The choices of an option. -/
def choicesOf (o : OptionSpec) : List Choice :=
  match o.value with
  | some v => match v.kind with
    | .choice cs => cs
    | _ => []
  | none => []

/-- Whether full help explains the choices of an option. -/
def explainsChoices (full : Bool) (o : OptionSpec) : Bool :=
  full && (choicesOf o).any (·.help.isSome)

/-- The remarks about an option. -/
def remarks (e : Environment) (full : Bool) (o : OptionSpec) : List String :=
  let fallback := o.fallback.map fun v => "[env: " ++ v ++ "=" ++ (e.get? v).getD "" ++ "]"
  let default := (o.value.bind (·.default)).map fun d => "[default: " ++ d ++ "]"
  let names := (choicesOf o).map (·.name)
  let choices :=
    if names.isEmpty || explainsChoices full o then none
    else some ("[possible values: " ++ String.intercalate ", " names ++ "]")
  fallback.toList ++ default.toList ++ choices.toList

/-- The entry of an option. -/
def optionEntry (e : Environment) (full : Bool) (o : OptionSpec) : Entry :=
  ⟨optionUsage o, o.help, remarks e full o, if explainsChoices full o then choicesOf o else []⟩

/-- The entry that asks for help; in one form of help it points to the other. -/
def helpEntry (full : Bool) : Entry :=
  ⟨"-h, --help", if full then "Print help (see a summary with '-h')"
    else "Print help (see more with '--help')", [], []⟩

/-- The entry that asks for the version. -/
def versionEntry : Entry := ⟨"-V, --version", "Print version", [], []⟩

/-- The key that orders options of the same rank: by letter, small before capital, or by name. -/
def orderKey (o : OptionSpec) : String :=
  match o.short with
  | some c => String.ofList [c.toLower, if c.isLower then '0' else '1']
  | none => o.long

/-- The options of a command and the global ones, ranked by their places in both lists. -/
def merged : List OptionSpec → List OptionSpec → List OptionSpec
  | [], globals => globals
  | own, [] => own
  | o :: own, g :: globals =>
    if orderKey g < orderKey o then g :: o :: merged own globals
    else o :: g :: merged own globals

/-- The options that help lists. -/
def listed : Option CommandName → List OptionSpec
  | none => globalOptions
  | some c => merged c.options globalOptions

/-! ### Sections -/

/-- One entry on one line, its explanation at a column. -/
def briefEntry (column : Nat) (e : Entry) : String :=
  "  " ++ padded column e.usage ++ "  " ++ String.intercalate " " (e.help :: e.remarks)

/-- One entry with its explanation below. -/
def fullEntry (e : Entry) : String :=
  let margin := "\n" ++ blanks 10
  let remarks :=
    if e.remarks.isEmpty then ""
    else margin ++ margin ++ String.intercalate margin e.remarks
  let widest := e.explained.foldl (fun w c => max w c.name.length) 0
  let choice (c : Choice) : String :=
    margin ++ "- " ++
      match c.help with
      | some h => padded (widest + 2) (c.name ++ ":") ++ h
      | none => c.name
  let choices :=
    if e.explained.isEmpty then ""
    else "\n" ++ margin ++ "Possible values:" ++ String.join (e.explained.map choice)
  "  " ++ e.usage ++ margin ++ e.help ++ remarks ++ choices

/-- A section of entries. -/
def sectionOf (full : Bool) (title : String) (entries : List Entry) : List String :=
  if entries.isEmpty then []
  else
    let column := entries.foldl (fun w e => max w e.usage.length) 0
    let body :=
      if full then String.intercalate "\n\n" (entries.map fullEntry)
      else String.intercalate "\n" (entries.map (briefEntry column))
    [title ++ ":\n" ++ body]

/-- The section of the commands. -/
def commandSection : String :=
  let rows := CommandName.all.map (fun c => (c.text, c.about)) ++
    [("help", "Print this message or the help of the given subcommand(s)")]
  let column := rows.foldl (fun w r => max w r.1.length) 0
  "Commands:\n" ++ String.intercalate "\n"
    (rows.map fun r => "  " ++ padded column r.1 ++ "  " ++ r.2)

/-- How a command is called. -/
def usageLine : Option CommandName → String
  | none => "Usage: sharing [OPTIONS] <COMMAND>"
  | some c =>
    let needed := c.options.filterMap fun o =>
      match o.value with
      | some v => if v.required then some (" --" ++ o.long ++ " <" ++ v.name ++ ">") else none
      | none => none
    "Usage: sharing " ++ c.text ++ " [OPTIONS]" ++ String.join needed ++
      match c.positional? with
      | some p => " <" ++ p.name ++ ">"
      | none => ""

/-- What the program or a command does. -/
def about (full : Bool) : Option CommandName → String
  | some c => c.about
  | none =>
    if full then
      "Evaluate access decisions, list filters and group membership against an access " ++
        "snapshot file."
    else "Sharing - record-level access control inspector"

/-- The help for the program or for a command. -/
def text (e : Environment) (command : Option CommandName) (full : Bool) : String :=
  let positional := (command.bind (·.positional?)).toList.map fun p =>
    (⟨"<" ++ p.name ++ ">", p.help, [], []⟩ : Entry)
  let options := (listed command).map (optionEntry e full) ++ [helpEntry full, versionEntry]
  String.intercalate "\n\n" ([about full command, usageLine command] ++
    (if command.isNone then [commandSection] else []) ++
    sectionOf full "Arguments" positional ++ sectionOf full "Options" options) ++ "\n"

end RecordAccess.CommandLine.Help
