/-!
# Files

What the library needs to know of files: their text or why it cannot be had, and the ending of a
name that tells its format.  The files themselves are given as a function.
-/

namespace RecordAccess

/-- Why the text of a file cannot be had. -/
inductive FileProblem
  | missing
  | directory
  /-- The bytes of the file are no text. -/
  | notText
  | other (text : String)
deriving DecidableEq, Inhabited

/-- The text of a problem. -/
def FileProblem.text : FileProblem → String
  | .missing => "No such file or directory (os error 2)"
  | .directory => "Is a directory (os error 21)"
  | .notText => "stream did not contain valid UTF-8"
  | .other t => t

/-- Gives the text of the file with a name. -/
abbrev FileReader := String → Except FileProblem String

/-- The text that bytes stand for. -/
def textOfBytes (bytes : ByteArray) : Except FileProblem String :=
  match String.fromUTF8? bytes with
  | some t => .ok t
  | none => .error .notText

/-- The parts of a path between slashes that name something. -/
def pathParts (path : String) : List String :=
  (path.splitOn "/").filter fun p => p ≠ "" && p ≠ "."

/-- The characters after the last dot and those before it. -/
def splitLastDot (cs : List Char) : Option (List Char × List Char) :=
  match cs.reverse.dropWhile (· ≠ '.') with
  | [] => none
  | _ :: before => some (before.reverse, (cs.reverse.takeWhile (· ≠ '.')).reverse)

/-- What follows the last dot of a file name; a dot in front of the name does not count. -/
def fileExtension? (path : String) : Option String :=
  match (pathParts path).getLast? with
  | none => none
  | some name =>
    if name = ".." then none
    else
      match splitLastDot name.toList with
      | none => none
      | some ([], _) => none
      | some (_, ending) => some (String.ofList ending)

end RecordAccess
