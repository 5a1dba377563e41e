import Galley.Words.Literal

/-!
# The words of a `load` tag

The parts of the tag are words separated by blanks.
-/

namespace Galley.LoadWord

/-- One step through the words. -/
def step : Cursor.Step Span := fun c =>
  if c.rest.isEmpty then none
  else
    let n := Text.wordLength c.rest
    some (.ok (c.ahead n), c.advance (n + Text.blankLength (c.rest.drop n)))

/-- All words in the parts of a tag; none of them can be wrong. -/
def all (source : List Char) (parts : Span) : List Span :=
  (Cursor.readAll step (.ofSpan source parts)).words

end Galley.LoadWord
