import RecordAccess.Json.Reader

/-!
# Percent encoding

A `%` and two hexadecimal digits stand for one byte; a `%` before anything else stands for itself.
-/

namespace RecordAccess.Text

/-- The bytes that a percent-encoded text stands for. -/
def percentDecoded : List Char → List UInt8
  | '%' :: a :: b :: rest =>
    match Json.Reader.hexValue? a, Json.Reader.hexValue? b with
    | some x, some y => (16 * x + y).toUInt8 :: percentDecoded rest
    | _, _ => '%'.toUInt8 :: percentDecoded (a :: b :: rest)
  | c :: rest => (String.singleton c).toUTF8.toList ++ percentDecoded rest
  | [] => []

/-- Whether the bytes that a percent-encoded text stands for are text again. -/
def percentDecodesToText (cs : List Char) : Bool :=
  (String.fromUTF8? ⟨(percentDecoded cs).toArray⟩).isSome

end RecordAccess.Text
