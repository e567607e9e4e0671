/-!
# Lines of a text

`linesOf` splits a text at its line ends and `joinLines` puts it together again.
-/

namespace RecordAccess.Text

/-- The lines of a text; after a line end at the end of the text there is an empty line. -/
def linesOf : List Char → List (List Char)
  | [] => [[]]
  | '\n' :: rest => [] :: linesOf rest
  | c :: rest =>
    match linesOf rest with
    | [] => [[c]]
    | line :: lines => (c :: line) :: lines

/-- The text made of some lines. -/
def joinLines (lines : List (List Char)) : List Char := List.intercalate ['\n'] lines

end RecordAccess.Text
