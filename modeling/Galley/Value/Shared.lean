import Galley.Value.Compare

/-!
# Shared values

A value can stand in several places, and is told by its number from others that are equal. A value
gets its number with its first place. An item that is taken from a list in one place is missing in
all of them, so how many items are left of a list is kept beside the values.

What a call is still to make has no parts yet, and gets no numbers.

* `Value.rebuild`: a value with a change made to all its parts.
* `Value.numbered`: a value in which everything has a number that can have one.
* `Value.reduced`: a value without the items that have been taken.
-/

namespace Galley

/-- How many items are left of numbered lists; of two entries for a list the first one counts. -/
abbrev Remains := List (Nat × Nat)

namespace Value

mutual

/-- **A value with a change made to all its parts,** to those inside of a part first. -/
def rebuild {m : Type → Type} [Monad m] (f : Value → m Value) : Value → m Value
  | list number items => do f (list number (← rebuildAll f items))
  | tuple number items => do f (tuple number (← rebuildAll f items))
  | dict number entries => do f (dict number (← rebuildEntries f entries))
  | view part entries => do f (view part (← rebuildEntries f entries))
  | stream number items ending => do f (stream number (← rebuildAll f items) ending)
  | object identity attributes call => do
    f (object identity (← rebuildAttributes f attributes) call)
  | scope number layers => do f (scope number (← rebuildLayers f layers))
  | v => f v

/-- Some values with a change made to all their parts. -/
def rebuildAll {m : Type → Type} [Monad m] (f : Value → m Value) : List Value → m (List Value)
  | [] => pure []
  | v :: rest => do return (← rebuild f v) :: (← rebuildAll f rest)

/-- Entries with a change made to all their parts. -/
def rebuildEntries {m : Type → Type} [Monad m] (f : Value → m Value) :
    List (Value × Value) → m (List (Value × Value))
  | [] => pure []
  | (k, v) :: rest => do
    return (← rebuild f k, ← rebuild f v) :: (← rebuildEntries f rest)

/-- Layers with a change made to all their parts. -/
def rebuildLayers {m : Type → Type} [Monad m] (f : Value → m Value) :
    List (List (Value × Value)) → m (List (List (Value × Value)))
  | [] => pure []
  | layer :: rest => do return (← rebuildEntries f layer) :: (← rebuildLayers f rest)

/-- Attributes with a change made to all their parts. -/
def rebuildAttributes {m : Type → Type} [Monad m] (f : Value → m Value) :
    List (String × Except HostError Value) → m (List (String × Except HostError Value))
  | [] => pure []
  | (name, .ok v) :: rest => do
    return (name, .ok (← rebuild f v)) :: (← rebuildAttributes f rest)
  | (name, .error e) :: rest => do return (name, .error e) :: (← rebuildAttributes f rest)

end

/-- The first number for values that get one. Those before it are for objects that an application
makes only once. -/
def firstNumber : Nat := 100

/-- A value with a number, if it is one that can have a number and has none yet. -/
def withNumber? (n : Nat) : Value → Option Value
  | nan 0 => some (nan n)
  | float x => if x.isNaN then some (nan n) else .none
  | bytes 0 data => some (bytes n data)
  | list 0 items => some (list n items)
  | tuple 0 items => some (tuple n items)
  | dict 0 entries => some (dict n entries)
  | range 0 start stop step => some (range n start stop step)
  | stream 0 items ending => some (stream n items ending)
  | object identity attributes call =>
    if identity.number = 0 then some (object { identity with number := n } attributes call)
    else .none
  | scope 0 layers => some (scope n layers)
  | _ => .none

/-- A part of a value with a number, if it can have one: its own, or the next one. -/
def numberPart (v : Value) : StateM Nat Value := fun next =>
  match v.withNumber? next with
  | some v => (v, next + 1)
  | .none => (v, next)

/-- **A value in which everything has a number** that can have one. The state is the next number.
With a value its parts have got their numbers too. -/
def numbered (v : Value) : StateM Nat Value :=
  if v.number = 0 then rebuild numberPart v else pure v

/-- The highest number in a value. -/
def highest (v : Value) : Nat :=
  ((rebuild (m := StateM Nat) (fun part n => (part, max n part.number)) v).run 0).2

/-- A part of a value without the items that have been taken from it. -/
def reducePart (remains : Remains) : Value → Value
  | list number items =>
    match remains.lookup number with
    | some n => list number (items.take n)
    | .none => list number items
  | v => v

/-- **A value without the items that have been taken** from its lists. -/
def reduced (remains : Remains) (v : Value) : Value :=
  rebuild (m := Id) (fun part => reducePart remains part) v

end Value

end Galley
