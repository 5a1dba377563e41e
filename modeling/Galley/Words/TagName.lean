import Galley.Words.Literal

/-!
# Tag names

The content of `{% %}` is a name and, behind blanks, the parts that the tag makes its own sense of.

* `TagWords.read?`: the spans of the name and of the parts.
-/

namespace Galley

/-- The name of a tag and what follows it. -/
structure TagWords where
  name : Span
  parts : Span
deriving DecidableEq

namespace TagWords

open Text (trim trimStart)

/-- **A tag's words**, or nothing if all is blank. The name has to fill the first word. The parts
have no blanks at either end; if there are none they are empty and follow the name. -/
def read? (content : List Char) (start : Nat) : Except TemplateError (Option TagWords) :=
  let bare := trim content
  if bare.isEmpty then .ok none
  else
    let start := start + (content.length - (trimStart content).length)
    let n := (bare.takeWhile Text.isNameChar).length
    if n < Text.wordLength bare then
      .error (.here .invalidTagName ⟨start, Text.wordLength bare⟩)
    else
      let parts := trim (bare.drop n)
      .ok (some ⟨⟨start, n⟩, ⟨start + (bare.length - parts.length), parts.length⟩⟩)

end TagWords

end Galley
