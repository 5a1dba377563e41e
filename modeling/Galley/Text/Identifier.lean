import Galley.Text.Boundaries
import Galley.Text.IdentifierTable

/-!
# Names

A name begins with a letter or an underscore and goes on with letters, digits, marks and
connecting punctuation.

* `isNameStart`, `isNameChar`: the two classes; the underscore is only in the second, because a
  path or filter may not begin with it.
* `isIdentifier`: a whole name, where a leading underscore is allowed.
-/

namespace Galley.Text

/-- Whether a name in a template may begin with the character. The underscore may not begin one. -/
def isNameStart (c : Char) : Bool :=
  if c.toNat < 0x80 then c.isAlpha else Boundaries.holds Identifier.startBounds c.toNat

/-- Whether the character may stand inside a name. -/
def isNameChar (c : Char) : Bool :=
  if c.toNat < 0x80 then c.isAlphanum || c == '_'
  else Boundaries.holds Identifier.continueBounds c.toNat

/-- Whether the text is a name from its first to its last character. -/
def isIdentifier : List Char → Bool
  | [] => false
  | c :: rest => (c == '_' || isNameStart c) && rest.all isNameChar

end Galley.Text
