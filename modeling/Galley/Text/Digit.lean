import Galley.Text.Boundaries
import Galley.Text.DigitTable

/-!
# Digits of all scripts

* `isDigit`: characters with a digit value, superscripts and circled digits included.
* `decimalValue?`: the value of a digit of a positional decimal system.
-/

namespace Galley.Text

/-- Whether a character has a digit value. -/
def isDigit (c : Char) : Bool :=
  if c.toNat < 0x80 then c.isDigit else Boundaries.holds Digit.digitBounds c.toNat

/-- The value of a decimal digit; superscripts and the like have none. -/
def decimalValue? (c : Char) : Option Nat :=
  if c.toNat < 0x80 then if c.isDigit then some (c.toNat - '0'.toNat) else none
  else (Boundaries.startOf? Digit.decimalBounds c.toNat).map fun low => (c.toNat - low) % 10

end Galley.Text
