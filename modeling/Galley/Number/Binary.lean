/-!
# Floating point numbers as exact fractions

A finite floating point number is `±mantissa · 2 ^ exponent`. Everything that depends on its exact
value works on this form: comparison with integers, truncation, and its decimal text.

* `Binary.decode`: the form of a floating point number.
* `Binary.nearest`: the floating point number nearest to a fraction.
* `Binary.truncate?`, `Binary.compareInt?`: conversions and comparisons without rounding.
-/

namespace Galley

/-- A floating point number taken apart. -/
inductive Binary where
  | nan
  | infinite (negative : Bool)
  | finite (negative : Bool) (mantissa : Nat) (exponent : Int)
deriving DecidableEq

namespace Binary

/-- The number of stored mantissa bits. -/
def storedBits : Nat := 52

/-- The exponent of the lowest mantissa bit of the smallest numbers. -/
def lowestExponent : Int := -1074

/-- Takes a floating point number apart. -/
def decode (x : Float) : Binary :=
  let bits := x.toBits.toNat
  let negative := bits / Nat.pow 2 63 == 1
  let exponent := bits / Nat.pow 2 storedBits % 2048
  let fraction := bits % Nat.pow 2 storedBits
  if exponent = 2047 then if fraction = 0 then infinite negative else nan
  else if exponent = 0 then finite negative fraction lowestExponent
  else finite negative (fraction + Nat.pow 2 storedBits) (lowestExponent + exponent - 1)

/-- The quotient of two numbers rounded to an integer, a half to the even neighbour. -/
def roundQuotient (num den : Nat) : Nat :=
  let quotient := num / den
  let twice := 2 * (num % den)
  if twice < den || (twice = den && quotient % 2 = 0) then quotient else quotient + 1

/-- The number of binary digits. -/
def bitLength (n : Nat) : Nat := if n = 0 then 0 else n.log2 + 1

/-- The fraction `num / den` divided by `2 ^ exponent`. -/
def scaled (num den : Nat) (exponent : Int) : Nat × Nat :=
  if exponent < 0 then (num * Nat.pow 2 (-exponent).toNat, den)
  else (num, den * Nat.pow 2 exponent.toNat)

/-- The exponent at which the quotient of `num / den` has one bit more than is stored: one of two
neighbouring guesses from the lengths of the two numbers, but never below the lowest exponent. -/
def exponentFor (num den : Nat) : Int :=
  let guess : Int := (bitLength num : Int) - bitLength den - storedBits
  let (n, d) := scaled num den guess
  let exponent := if n / d < Nat.pow 2 storedBits then guess - 1 else guess
  max exponent lowestExponent

/-- **Rounding to nearest.** The floating point number nearest to `num / den`, a tie going to the
even mantissa; infinity if the fraction is too large. -/
def nearest (negative : Bool) (num den : Nat) : Float :=
  let sign := if negative then Nat.pow 2 63 else 0
  if num = 0 then Float.ofBits (UInt64.ofNat sign)
  else
    let exponent := exponentFor num den
    let (n, d) := scaled num den exponent
    let mantissa := roundQuotient n d
    -- a mantissa that rounding carries over reads as the next exponent, as it should
    let biased := (exponent - lowestExponent).toNat * Nat.pow 2 storedBits + mantissa
    Float.ofBits (UInt64.ofNat (sign + min biased (2047 * Nat.pow 2 storedBits)))

/-- The floating point number nearest to an integer, unless it is too large. -/
def ofInt? (n : Int) : Option Float :=
  let x := nearest (n < 0) n.natAbs 1
  if x.isFinite then some x else none

/-- The integer next to the number on the side of zero. -/
def truncate? : Binary → Option Int
  | finite negative mantissa exponent =>
    let size : Nat :=
      if exponent < 0 then mantissa / Nat.pow 2 (-exponent).toNat
      else mantissa * Nat.pow 2 exponent.toNat
    some (if negative then -(size : Int) else size)
  | _ => none

/-- Whether the number is an integer. -/
def isInteger : Binary → Bool
  | finite _ mantissa exponent => 0 ≤ exponent || mantissa % Nat.pow 2 (-exponent).toNat = 0
  | _ => false

/-- **Exact comparison** of an integer with the number; nothing compares with what is no number. -/
def compareInt? (n : Int) : Binary → Option Ordering
  | nan => none
  | infinite negative => some (if negative then .gt else .lt)
  | finite negative mantissa exponent =>
    let signed : Int := if negative then -(mantissa : Int) else mantissa
    some <|
      if exponent < 0 then compare (n * Nat.pow 2 (-exponent).toNat) signed
      else compare n (signed * Nat.pow 2 exponent.toNat)

end Binary

end Galley
