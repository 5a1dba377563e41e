import Galley.Text.Blank
import Galley.Text.Digit

/-!
# Reading and writing integers

Integers have no bounds, but their decimal texts do: a number of more than 4300 digits is neither
read nor written.

* `Integer.read?`: an optional sign and digits of any script, single underscores allowed between
  them, blanks allowed around.
* `Integer.text?`: the shortest decimal text.
-/

namespace Galley.Integer

/-- The greatest number of digits in a decimal text. -/
def digitLimit : Nat := 4300

/-- Two to the power of 63: what the integers of a machine word stay below. -/
def wordBound : Int := 9223372036854775808

/-- Whether an integer fits into a machine word. -/
def fitsWord (n : Int) : Bool := -wordBound ≤ n && n < wordBound

/-- The blanks that may stand around a number: the information separators may not. -/
def isNumberBlank (c : Char) : Bool := Text.isBlank c && !(28 ≤ c.toNat && c.toNat ≤ 31)

/-- The values of digits in which single underscores may stand. -/
def digits? : List Char → Option (List Nat)
  | [] => none
  | [c] => (Text.decimalValue? c).map fun d => [d]
  | c :: '_' :: rest => do return (← Text.decimalValue? c) :: (← digits? rest)
  | c :: next :: rest => do return (← Text.decimalValue? c) :: (← digits? (next :: rest))

/-- The number that digits denote, the highest first. -/
def ofDigits (digits : List Nat) : Nat := digits.foldl (fun n d => 10 * n + d) 0

/-- The number that unsigned digits denote, unless they are too many. -/
def magnitude? (text : List Char) : Option Nat := do
  let digits ← digits? text
  if digits.length ≤ digitLimit then some (ofDigits digits) else none

/-- The integer that a text denotes. -/
def read? (text : List Char) : Option Int :=
  let bare := ((text.dropWhile isNumberBlank).reverse.dropWhile isNumberBlank).reverse
  match bare with
  | '-' :: rest => (magnitude? rest).map fun n => -(n : Int)
  | '+' :: rest => (magnitude? rest).map fun n => (n : Int)
  | rest => (magnitude? rest).map fun n => (n : Int)

/-- Whether an integer has a decimal text. -/
def hasText (n : Int) : Bool := n.natAbs < Nat.pow 10 digitLimit

/-- The decimal text of an integer, unless it has too many digits. -/
def text? (n : Int) : Option String := if hasText n then some (toString n) else none

end Galley.Integer
