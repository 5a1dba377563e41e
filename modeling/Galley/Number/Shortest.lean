import Galley.Number.Binary

/-!
# The shortest decimal text of a floating point number

The digits are the fewest that read back as the same number, and of those the nearest to it. They
are found by trying one digit, two digits and so on: on each decimal grid only the two neighbours
of the number can lie in the interval of fractions that round to it.

* `shortestDigits`: the digits and the place of the decimal point.
* `floatText`: positional for exponents from -4 to 15, with an exponent otherwise.
-/

namespace Galley

namespace Shortest

/-- Digits `d₁d₂…` standing for `0.d₁d₂… · 10 ^ point`. -/
structure Decimal where
  digits : List Char
  point : Int

/-- An exact positive fraction. -/
structure Fraction where
  num : Nat
  den : Nat

/-- The fraction `mantissa · 2 ^ exponent`. -/
def Fraction.ofBinary (mantissa : Nat) (exponent : Int) : Fraction :=
  if exponent < 0 then ⟨mantissa, Nat.pow 2 (-exponent).toNat⟩
  else ⟨mantissa * Nat.pow 2 exponent.toNat, 1⟩

/-- The fraction `n · 10 ^ exponent`. -/
def Fraction.ofGrid (n : Nat) (exponent : Int) : Fraction :=
  if exponent < 0 then ⟨n, Nat.pow 10 (-exponent).toNat⟩
  else ⟨n * Nat.pow 10 exponent.toNat, 1⟩

def Fraction.lt (a b : Fraction) : Bool := a.num * b.den < b.num * a.den

def Fraction.le (a b : Fraction) : Bool := a.num * b.den ≤ b.num * a.den

/-- The fractions that round to a number: an interval with or without its ends. -/
structure Interval where
  low : Fraction
  high : Fraction
  closed : Bool

/-- The interval of a finite number that is not zero. Below a power of two numbers are twice as
dense as above it. -/
def intervalOf (mantissa : Nat) (exponent : Int) : Interval :=
  let even := mantissa % 2 = 0
  if mantissa = Nat.pow 2 Binary.storedBits && exponent > Binary.lowestExponent then
    ⟨.ofBinary (4 * mantissa - 1) (exponent - 2), .ofBinary (2 * mantissa + 1) (exponent - 1), even⟩
  else
    ⟨.ofBinary (2 * mantissa - 1) (exponent - 1), .ofBinary (2 * mantissa + 1) (exponent - 1), even⟩

def Interval.holds (i : Interval) (x : Fraction) : Bool :=
  if i.closed then i.low.le x && x.le i.high else i.low.lt x && x.lt i.high

/-- The number of decimal digits before the point, which is not positive for a number below one
tenth. The factor makes every number large enough for its digits to be counted. -/
def pointOf (x : Fraction) : Int :=
  ((Nat.toDigits 10 (x.num * Nat.pow 10 400 / x.den)).length : Int) - 400

/-- The neighbour of the number on the grid of `count` digits that reads back as it; the nearer of
two, and of two equally near ones the even one. -/
def onGrid? (i : Interval) (x : Fraction) (count : Nat) : Option Nat :=
  let exponent := pointOf x - count
  let unit := Fraction.ofGrid 1 exponent
  let num := x.num * unit.den
  let den := x.den * unit.num
  let below := num / den
  let twice := 2 * (num % den)
  let preferBelow := twice < den || (twice = den && below % 2 = 0)
  let fits n := 0 < n && i.holds (.ofGrid n exponent)
  match fits below, fits (below + 1) with
  | true, true => some (if preferBelow then below else below + 1)
  | true, false => some below
  | false, true => some (below + 1)
  | false, false => none

/-- Tries grids from `count` digits on, at most `tries` of them. -/
def search (i : Interval) (x : Fraction) (count : Nat) : (tries : Nat) → Nat × Nat
  | 0 => (0, count)
  | tries + 1 =>
    match onGrid? i x count with
    | some n => (n, count)
    | none => search i x (count + 1) tries

/-- The shortest digits of `mantissa · 2 ^ exponent`. Seventeen always suffice. -/
def shortestDigits (mantissa : Nat) (exponent : Int) : Decimal :=
  let x := Fraction.ofBinary mantissa exponent
  let (n, count) := search (intervalOf mantissa exponent) x 1 17
  let digits := Nat.toDigits 10 n
  -- the upper neighbour of 9, 99, … has one digit more
  let point := pointOf x + ((digits.length : Int) - count)
  ⟨(digits.reverse.dropWhile (· = '0')).reverse, point⟩

/-- The digits with the point among them or beside them, and at least one digit after it. -/
def positional (d : Decimal) : List Char :=
  if d.point ≤ 0 then '0' :: '.' :: (List.replicate (-d.point).toNat '0' ++ d.digits)
  else
    let whole := d.point.toNat
    if d.digits.length ≤ whole then
      d.digits ++ List.replicate (whole - d.digits.length) '0' ++ ['.', '0']
    else d.digits.take whole ++ '.' :: d.digits.drop whole

/-- The digits with an exponent, which has a sign and at least two digits. -/
def scientific (d : Decimal) : List Char :=
  let exponent := d.point - 1
  let size := Nat.toDigits 10 exponent.natAbs
  d.digits.take 1 ++ (if d.digits.length ≤ 1 then [] else '.' :: d.digits.drop 1) ++
    ['e', if exponent < 0 then '-' else '+'] ++ List.replicate (2 - size.length) '0' ++ size

end Shortest

open Shortest in
/-- **The text of a floating point number.** It always shows a point, an exponent or a name. -/
def floatText (x : Float) : String :=
  match Binary.decode x with
  | .nan => "nan"
  | .infinite negative => if negative then "-inf" else "inf"
  | .finite negative mantissa exponent =>
    let sign := if negative then ['-'] else []
    if mantissa = 0 then String.ofList (sign ++ ['0', '.', '0'])
    else
      let d := shortestDigits mantissa exponent
      let body := if -4 < d.point && d.point ≤ 16 then positional d else scientific d
      String.ofList (sign ++ body)

end Galley
