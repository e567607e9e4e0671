import RecordAccess.Configuration.Basic
import RecordAccess.Decimal.Digits
import RecordAccess.Text.Blank

/-!
# Level directives

Log levels are set by directives with commas between them.  A directive is a level, or a target that
may be followed by a span in brackets, fields of the span in braces and `=` with a level, such as
`module[span]=debug`.  A target alone stands for all of its levels.

`Directive.isValid` checks one directive and `LoggingSettings.directivesAreValid` all of some
settings.
-/

namespace RecordAccess

namespace Directive

/-- Where in a directive a character stands, with the place where its part started. -/
inductive Part
  | start
  | levelOrTarget (since : Nat)
  | span (since : Nat)
  | field (since : Nat)
  | fields
  | target
  | level (since : Nat)
  | complete
deriving DecidableEq

/-- The names of levels. -/
def levelNames : List String := ["error", "warn", "info", "debug", "trace", "off"]

/-- Whether a text is a level: a name in any case, a number up to five or nothing at all. -/
def isLevel (cs : List Char) : Bool :=
  cs.isEmpty || levelNames.contains (String.ofList (cs.map Char.toLower)) ||
    (Decimal.bounded? 5 (String.ofList cs)).isSome

/-- Whether a target can begin with a character; outside ASCII every one counts as a letter. -/
def startsTarget (c : Char) : Bool :=
  c.isAlphanum || c = '-' || c = ':' || c = '_' || 128 ≤ c.toNat

/-- The part of a text between two places. -/
def slice (cs : List Char) (first last : Nat) : List Char := (cs.drop first).take (last - first)

/-- The part that the character at a place leads to. -/
def next? (cs : List Char) (place : Nat) (c : Char) : Part → Option Part
  | .start =>
    if c = '[' then some (.span (place + 1))
    else if startsTarget c then some (.levelOrTarget place)
    else none
  | .levelOrTarget since =>
    if c = '=' then some (.level (place + 1))
    else if c = '[' then some (.span (place + 1))
    else if c = ',' then some .complete
    else some (.levelOrTarget since)
  | .target => if c = '=' then some (.level (place + 1)) else none
  | .span since =>
    if c = ']' then some .target
    else if c = '\x7b' then some (.field (place + 1))
    else some (.span since)
  | .field since =>
    if c = '\x7d' || c = ',' then
      if (slice cs since place).isEmpty then none
      else if c = ',' then some (.field (place + 1))
      else some .fields
    else some (.field since)
  | .fields => if c = ']' then some .target else none
  | .level since =>
    if c = ',' then
      if isLevel (slice cs since place) then some .complete else none
    else some (.level since)
  | .complete => none

/-- Whether a directive may end in a part. -/
def mayEnd (cs : List Char) : Part → Bool
  | .levelOrTarget _ => true
  | .level since => isLevel (cs.drop since)
  | .target => true
  | .complete => true
  | _ => false

/-- Whether a text is one directive.  Blanks around it are not read, but the parts are still taken
from the whole text. -/
def isValid (t : String) : Bool :=
  let cs := t.toList
  let last := ((Text.trim cs).zipIdx).foldl
    (fun part (c, place) => part.bind (next? cs place c)) (some Part.start)
  last.any (mayEnd cs)

end Directive

/-- Whether all level directives of some settings are well formed. -/
def LoggingSettings.directivesAreValid (l : LoggingSettings) : Bool :=
  ((l.level.splitOn ",").all fun d => d.isEmpty || Directive.isValid d) &&
    l.moduleLevels.all fun m => Directive.isValid (m.1 ++ "=" ++ m.2)

end RecordAccess
