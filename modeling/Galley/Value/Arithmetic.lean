import Galley.Value.Compare

/-!
# Arithmetic on values

Numbers of both kinds are added, multiplied and divided; texts and lists are joined and repeated.
Operands that do not go together raise an error that names their types.

* `Value.add`, `Value.mul`, `Value.div`: the operations.
* `Value.toInteger`: the integer that a value converts to.
-/

namespace Galley.Value

/-- The error of operands that do not go together. -/
def unsupported (operator : String) (a b : Value) : HostError :=
  .typeError ("unsupported operand type(s) for " ++ operator ++ ": '" ++ a.typeName ++ "' and '" ++
    b.typeName ++ "'")

/-- A number as a floating point number, unless it is too large. -/
def Number.toFloat : Number → Except HostError Float
  | .float x => .ok x
  | .int n =>
    match Binary.ofInt? n with
    | some x => .ok x
    | .none => .error (.overflowError "int too large to convert to float")

/-- An operation on two numbers: on integers if both are, else on floating point numbers. -/
def arithmetic (onInts : Int → Int → Int) (onFloats : Float → Float → Float) (a b : Number) :
    Except HostError Value :=
  match a, b with
  | .int m, .int n => .ok (int (onInts m n))
  | a, b => do return float (onFloats (← a.toFloat) (← b.toFloat))

/-- The error of joining a sequence with something else. -/
def cannotJoin (kind : String) (b : Value) : HostError :=
  .typeError ("can only concatenate " ++ kind ++ " (not \"" ++ b.typeName ++ "\") to " ++ kind)

/-- **The sum** of two values. Two texts are joined; the result is safe only if both are. -/
def add (a b : Value) : Except HostError Value :=
  match number? a, number? b with
  | some m, some n => arithmetic (· + ·) (· + ·) m n
  | _, _ =>
    match a, b with
    | text i s, text j t => .ok (text (if i = .safe && j = .safe then .safe else .plain) (s ++ t))
    | list _ as, list _ bs => .ok (list 0 (as ++ bs))
    | tuple _ as, tuple _ bs => .ok (tuple 0 (as ++ bs))
    | bytes _ s, bytes _ t => .ok (bytes 0 (s ++ t))
    | text .., _ => .error (cannotJoin "str" b)
    | list .., _ => .error (cannotJoin "list" b)
    | tuple .., _ => .error (cannotJoin "tuple" b)
    | bytes .., _ => .error (.typeError ("can't concat " ++ b.typeName ++ " to bytes"))
    | _, _ => .error (unsupported "+" a b)

/-- Whether a value can be repeated. -/
def isSequence : Value → Bool
  | text .. | list .. | tuple .. | bytes .. => true
  | _ => false

/-- A list repeated, if there is room for it. The error is that of a length beyond all bounds. -/
def replicateList {α : Type} (tooLong : HostError) (items : List α) (n : Nat) :
    Except HostError (List α) :=
  if items.isEmpty then .ok []
  else if Integer.wordBound ≤ (items.length * n : Nat) then .error tooLong
  else if longestSequence < items.length * n then .error .outOfMemory
  else .ok (List.replicate n items).flatten

/-- A sequence repeated. -/
def repeated (operator : String) (n : Nat) (sequence count : Value) : Except HostError Value :=
  match sequence with
  | text _ s => do
    let long := HostError.overflowError "repeated string is too long"
    return str (String.ofList (← replicateList long s.toList n))
  | bytes _ data => do
    return bytes 0 (← replicateList (.overflowError "repeated bytes are too long") data n)
  | list _ items => do return list 0 (← replicateList .outOfMemory items n)
  | tuple _ items => do return tuple 0 (← replicateList .outOfMemory items n)
  | _ => .error (unsupported operator sequence count)

/-- Repeats a sequence as often as another value says, which has to be an integer. One that is not
positive leaves nothing. -/
def repeatBy (operator : String) (sequence count : Value) : Except HostError Value :=
  match integer? count with
  | some n =>
    if !Integer.fitsWord n then
      .error (.overflowError "cannot fit 'int' into an index-sized integer")
    else repeated operator n.toNat sequence count
  | .none =>
    .error (.typeError ("can't multiply sequence by non-int of type '" ++ count.typeName ++ "'"))

/-- The product of two values; an error shows the operator as it is written. -/
def product (operator : String) (a b : Value) : Except HostError Value :=
  match number? a, number? b with
  | some m, some n => arithmetic (· * ·) (· * ·) m n
  | _, _ =>
    if isSequence a then repeatBy operator a b
    else if isSequence b then repeatBy operator b a
    else .error (unsupported operator a b)

/-- **The product** of two values. -/
def mul (a b : Value) : Except HostError Value := product "*" a b

/-- **The quotient** of two values, always a floating point number. That of two integers is rounded
once. -/
def div (a b : Value) : Except HostError Value :=
  match number? a, number? b with
  | some (.int m), some (.int n) =>
    if n = 0 then .error { kind := "ZeroDivisionError", text := "division by zero" }
    else
      let x := Binary.nearest (decide (m < 0) != decide (n < 0)) m.natAbs n.natAbs
      if x.isFinite then .ok (float x)
      else .error (.overflowError "integer division result too large for a float")
  | some m, some n => do
    let x ← m.toFloat
    let y ← n.toFloat
    if y == 0.0 then throw { kind := "ZeroDivisionError", text := "float division by zero" }
    else return float (x / y)
  | _, _ => .error (unsupported "/" a b)

/-- **The integer that a value converts to.** Numbers are truncated, texts and bytes are read. -/
def toInteger (v : Value) : Except HostError Int :=
  match v with
  | bool b => .ok (if b then 1 else 0)
  | int n => .ok n
  | nan _ => .error (.valueError "cannot convert float NaN to integer")
  | float x =>
    match Binary.decode x with
    | .nan => .error (.valueError "cannot convert float NaN to integer")
    | .infinite _ => .error (.overflowError "cannot convert float infinity to integer")
    | b => .ok (b.truncate?.getD 0)
  | text _ s =>
    match Integer.read? s.toList with
    | some n => .ok n
    | .none =>
      .error (.valueError ("invalid literal for int() with base 10: " ++ Text.quoted s))
  | bytes _ data =>
    -- only ASCII digits and blanks count
    if data.all (·.toNat < 0x80) then
      match Integer.read? (data.map fun b => Char.ofNat b.toNat) with
      | some n => .ok n
      | .none => .error
          (.valueError ("invalid literal for int() with base 10: " ++ Text.quotedBytes data))
    else .error (.valueError ("invalid literal for int() with base 10: " ++ Text.quotedBytes data))
  | v =>
    .error (.typeError
      ("int() argument must be a string, a bytes-like object or a real number, not '" ++
        v.typeName ++ "'"))

end Galley.Value
