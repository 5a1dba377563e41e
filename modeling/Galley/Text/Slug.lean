import Galley.Text.Case
import Galley.Text.SlugTable
import Galley.Text.Blank

/-!
# Slugs

A slug is what is left of a text in ASCII, in lower case, with only word characters and with
single hyphens for blanks, and neither hyphens nor underscores at its ends.

* `toAscii`: the ASCII remains of the compatibility decomposition.
* `slug`: the slug of a text.
-/

namespace Galley.Text

/-- What is left of a character in ASCII once it is decomposed. -/
def asciiOf (c : Char) : List Char :=
  if c.toNat < 0x80 then [c]
  else ((Slug.asciiRemains.find? fun entry => entry.2.contains c.toNat).map (·.1.toList)).getD []

/-- What is left of a text in ASCII. -/
def toAscii (text : List Char) : List Char := text.flatMap asciiOf

namespace Slug

/-- The characters that a hyphen takes the place of. -/
def isGap (c : Char) : Bool := isBlank c || c == '-'

/-- Whether a character of a lower case ASCII text may stay. -/
def isKept (c : Char) : Bool := c.isAlphanum || c == '_' || isGap c

/-- Every run of gaps becomes one hyphen; `inGap` tells whether one was just written. -/
def hyphenate (inGap : Bool) : List Char → List Char
  | [] => []
  | c :: rest =>
    if isGap c then if inGap then hyphenate true rest else '-' :: hyphenate true rest
    else c :: hyphenate false rest

/-- Whether a character is dropped from the ends of a slug. -/
def isEdge (c : Char) : Bool := c == '-' || c == '_'

end Slug

open Slug

/-- The slug of a text. -/
def slug (text : List Char) : List Char :=
  let words := hyphenate false ((lower (toAscii text)).filter isKept)
  ((words.dropWhile isEdge).reverse.dropWhile isEdge).reverse

end Galley.Text
