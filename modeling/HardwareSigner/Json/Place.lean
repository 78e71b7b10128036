import HardwareSigner.Text.Numeral
/-!
Places in a document, as they stand at the end of what is said about a fault.  Words and place are
kept apart, so words that happen to end in a place lose it.
-/

namespace HardwareSigner.Json.Place

/-- What stands before the given words and a number of 64 bits, if a text ends in these. -/
def dropNumber? (words cs : List Char) : Option (List Char) :=
  let digits := cs.reverse.takeWhile Char.isDigit
  let before := cs.take (cs.length - digits.length)
  if (Text.decimal? (2 ^ 64) digits.reverse).isSome && words.isSuffixOf before then
    some (before.take (before.length - words.length))
  else none

/-- What stands before the line and the column that a text ends in. -/
def drop? (cs : List Char) : Option (List Char) :=
  (dropNumber? " column ".toList cs).bind (dropNumber? " at line ".toList)

/-- A text without the place that it ends in. -/
def strip (text : String) : String :=
  match drop? text.toList with
  | some words => String.ofList words
  | none => text

end HardwareSigner.Json.Place
