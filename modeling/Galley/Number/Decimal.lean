import Galley.Number.Binary
import Galley.Number.Integer

/-!
# Reading decimal fractions

A decimal literal is an optional sign, digits with an optional point among them, and an optional
exponent. Names stand for the values that are no numbers.

* `DecimalLiteral.read?`: the parts of a literal.
* `DecimalLiteral.toFloat`: the floating point number nearest to it.
* `readFloat?`: both, and the names `nan`, `inf` and `infinity`.
-/

namespace Galley

/-- The literal `±digits · 10 ^ exponent`, without its leading zeros. -/
structure DecimalLiteral where
  negative : Bool
  digits : Nat
  exponent : Int
deriving DecidableEq

namespace DecimalLiteral

/-- The value of ASCII digits. -/
def ofAscii (digits : List Char) : Nat := Integer.ofDigits (digits.map fun c => c.toNat - 48)

/-- The exponent part of a literal: nothing, or `e`, an optional sign and digits. -/
def exponent? : List Char → Option Int
  | [] => some 0
  | mark :: rest =>
    if mark = 'e' || mark = 'E' then
      let (negative, digits) := match rest with
        | '-' :: digits => (true, digits)
        | '+' :: digits => (false, digits)
        | digits => (false, digits)
      if digits.isEmpty || !digits.all Char.isDigit then none
      else some (if negative then -(ofAscii digits : Int) else ofAscii digits)
    else none

/-- The parts of an unsigned literal: digits before and after the point, at least one of them. -/
def readUnsigned? (negative : Bool) (text : List Char) : Option DecimalLiteral := do
  let whole := text.takeWhile Char.isDigit
  let (places, tail) := match text.dropWhile Char.isDigit with
    | '.' :: rest => (rest.takeWhile Char.isDigit, rest.dropWhile Char.isDigit)
    | rest => ([], rest)
  if whole.isEmpty && places.isEmpty then none
  else
    let exponent ← exponent? tail
    return ⟨negative, ofAscii (whole ++ places), exponent - places.length⟩

/-- The parts of a literal. -/
def read? : List Char → Option DecimalLiteral
  | '-' :: rest => readUnsigned? true rest
  | '+' :: rest => readUnsigned? false rest
  | rest => readUnsigned? false rest

/-- The floating point number nearest to a literal. Numbers whose size is beyond all floating point
numbers, or below all but zero, are decided by their number of digits alone. -/
def toFloat (d : DecimalLiteral) : Float :=
  let size : Int := (Nat.toDigits 10 d.digits).length + d.exponent
  if d.digits = 0 || size < -400 then Binary.nearest d.negative 0 1
  else if 400 < size then if d.negative then -(1.0 / 0.0) else 1.0 / 0.0
  else if d.exponent < 0 then Binary.nearest d.negative d.digits (Nat.pow 10 (-d.exponent).toNat)
  else Binary.nearest d.negative (d.digits * Nat.pow 10 d.exponent.toNat) 1

end DecimalLiteral

/-- The value of a name, without its sign, in lower case. -/
def floatNamed? (name : String) : Option Float :=
  if name = "nan" then some (0.0 / 0.0)
  else if name = "inf" || name = "infinity" then some (1.0 / 0.0)
  else none

/-- The floating point number that a text names or denotes. -/
def readFloat? (text : List Char) : Option Float :=
  let (negative, bare) := match text with
    | '-' :: rest => (true, rest)
    | '+' :: rest => (false, rest)
    | rest => (false, rest)
  match floatNamed? (String.ofList (bare.map Char.toLower)) with
  | some x => some (if negative then -x else x)
  | none => (DecimalLiteral.read? text).map DecimalLiteral.toFloat

end Galley
