import Galley.Value.Compare

/-!
# Walking through values

* `Walk`: the items that come up, and the error that may end the walk early.
* `Value.walk?`: the walk through a value that can be walked through.
* `Value.joinTexts`, `Value.substitute`: texts made of walks and values.
-/

namespace Galley

/-- The items of a walk, and the error that ends it if it does not end well. -/
structure Walk where
  items : List Value
  ending : Option HostError := none

namespace Walk

/-- All items of a walk that ends well. -/
def toExcept (w : Walk) : Except HostError (List Value) :=
  match w.ending with
  | some e => .error e
  | none => .ok w.items

end Walk

namespace Value

/-- A member of a view. -/
def viewItem (part : DictPart) (entry : Value × Value) : Value :=
  match part with
  | .keys => entry.1
  | .values => entry.2
  | .items => tuple 0 [entry.1, entry.2]

/-- The walk through a range. One whose members there is no room for ends at its first member. -/
def walkRange (start stop step : Int) : Walk :=
  let n := rangeLength start stop step
  if Integer.wordBound ≤ n then
    { items := [int start]
      ending := some (.overflowError "Python int too large to convert to C ssize_t") }
  else if longestSequence < n then { items := [int start], ending := some .outOfMemory }
  else { items := (List.range n).map fun (i : Nat) => int (start + (i : Int) * step) }

/-- **The walk through a value,** if there is one: the characters of a text, the keys of a
dictionary, the layers of a scope from the highest on. -/
def walk? (v : Value) : Option Walk :=
  match v with
  | text _ s => some { items := s.toList.map fun c => str (String.ofList [c]) }
  | bytes _ data => some { items := data.map fun b => int b.toNat }
  | list _ items | tuple _ items => some { items }
  | dict _ entries => some { items := entries.map (·.1) }
  | view part entries => some { items := entries.map (viewItem part) }
  | range _ start stop step => some (walkRange start stop step)
  | stream _ items ending => some { items, ending := ending.map HostError.leavingText }
  | scope _ layers => some { items := layers.reverse.map (dict 0) }
  | _ => .none

/-- The error of walking through a value that cannot be walked through. -/
def notIterable (v : Value) : HostError :=
  .typeError ("'" ++ v.typeName ++ "' object is not iterable")

/-- The texts among items, or the error for the first item that is none; `i` counts the items. -/
def textsFrom (i : Nat) : List Value → Except HostError (List String)
  | [] => .ok []
  | text _ s :: rest => (textsFrom (i + 1) rest).map (s :: ·)
  | v :: _ =>
    .error (.typeError ("sequence item " ++ toString i ++ ": expected str instance, " ++
      v.typeName ++ " found"))

/-- The texts that a value holds, joined by commas. -/
def joinTexts (v : Value) : Except HostError String := do
  match v.walk? with
  | .none => throw (.typeError "can only join an iterable")
  | some w => return ", ".intercalate (← textsFrom 0 (← w.toExcept))

/-- **A value put into a text** between two others. A tuple has to hold exactly one value, which is
put there instead. -/
def substitute (before : String) (v : Value) (behind : String) : Except HostError String := do
  match v with
  | tuple _ [] => throw (.typeError "not enough arguments for format string")
  | tuple _ [item] => return before ++ (← item.toText) ++ behind
  | tuple .. => throw (.typeError "not all arguments converted during string formatting")
  | v => return before ++ (← v.toText) ++ behind

end Value

end Galley
