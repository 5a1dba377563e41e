import Galley.Value.Compare
import Galley.Value.Member
import Galley.Value.Shared

/-!
# Scopes

A template is rendered in a scope: layers of variables, the counters of the running loops, and the
settings of the render. The lowest layer holds the constants and is never taken off.

* `Scope.get?`, `Scope.flatten`: reading variables, where higher layers hide lower ones.
* `Scope.set`, `Scope.setUpward`, `Scope.setDefault`, `Scope.delete`: writing them.
* `Scope.push`, `Scope.pop`: layers.
* `Scope.take`, `Scope.current`: taking items from lists, and values as they are by then.
* `Loop`, `Scope.loopAt`, `Scope.loopEntries`: running loops and how templates see them.
-/

namespace Galley

/-- Variables with their values, in the order in which they were first set. -/
abbrev Layer := List (Value × Value)

namespace Layer

/-- The value of a variable. -/
def get? (layer : Layer) (key : Value) : Option Value := Value.lookupKey? layer key

/-- Whether a variable is set. -/
def has (layer : Layer) (key : Value) : Bool := layer.any fun entry => Value.alike entry.1 key

/-- **Sets a variable.** One that is set already keeps its place and its key. -/
def set (layer : Layer) (key value : Value) : Layer :=
  if layer.has key then
    layer.map fun entry => if Value.alike entry.1 key then (entry.1, value) else entry
  else layer ++ [(key, value)]

/-- The layer without a variable. -/
def erase (layer : Layer) (key : Value) : Layer :=
  layer.filter fun entry => !Value.alike entry.1 key

/-- Sets variables one after the other. -/
def setAll (layer : Layer) (entries : List (Value × Value)) : Layer :=
  entries.foldl (fun layer entry => layer.set entry.1 entry.2) layer

/-- The layer of some entries; of equal keys the first stays, with the last value. -/
def ofEntries (entries : List (Value × Value)) : Layer := setAll [] entries

/-- The layer with numbers for its values. The state is the next number. -/
def numbered (layer : Layer) : StateM Nat Layer :=
  layer.mapM fun (key, v) => return (← key.numbered, ← v.numbered)

/-- The first number that is free beside those in a layer. -/
def freeNumber (layer : Layer) : Nat :=
  layer.foldl (fun n (k, v) => max n (max k.highest v.highest + 1)) Value.firstNumber

/-- **The layer that an application gives,** with numbers for its values. -/
def given (layer : Layer) : Layer := (layer.numbered.run layer.freeNumber).1

/-- The layer without the items that have been taken from lists. -/
def reduced (remains : Remains) (layer : Layer) : Layer :=
  layer.map fun (key, v) => (key, v.reduced remains)

/-- The layer with the constants. -/
def constants : Layer :=
  [(.str "True", .bool true), (.str "False", .bool false), (.str "None", .none)]

end Layer

/-- The counters of a running loop: the number of finished rounds and the number of all rounds. -/
structure Loop where
  count : Int
  length : Int
deriving DecidableEq

/-- A counter of a loop that templates can ask for. -/
inductive LoopCounter where
  | counter
  | counter0
  | revcounter
  | revcounter0
  | first
  | last
deriving DecidableEq

namespace LoopCounter

/-- How a counter is written. -/
def word : LoopCounter → String
  | counter => "counter"
  | counter0 => "counter0"
  | revcounter => "revcounter"
  | revcounter0 => "revcounter0"
  | first => "first"
  | last => "last"

/-- All counters. -/
def all : List LoopCounter := [counter, counter0, revcounter, revcounter0, first, last]

/-- The counter that a word asks for. -/
def ofWord? (word : String) : Option LoopCounter := all.find? (·.word = word)

end LoopCounter

namespace Loop

/-- The value of a counter. -/
def read (loop : Loop) : LoopCounter → Value
  | .counter => .int (loop.count + 1)
  | .counter0 => .int loop.count
  | .revcounter => .int (loop.length - loop.count)
  | .revcounter0 => .int (loop.length - loop.count - 1)
  | .first => .bool (loop.count = 0)
  | .last => .bool (loop.count + 1 = loop.length)

/-- The counters as a dictionary that also holds the dictionary of the loop around. -/
def toDict (loop : Loop) (around : Value) : Value :=
  .dict 0 ((.str "parentloop", around) ::
    [LoopCounter.counter0, .counter, .revcounter, .revcounter0, .first, .last].map fun c =>
      (.str c.word, loop.read c))

end Loop

/-- The request that a page is rendered for. -/
structure Request where
  /-- The application that answers it, if that is known; `none` inside means that it has no name. -/
  currentApp : Option Value := none
  /-- The namespace in which its path was found, if a path was found in one. -/
  namespaceName : Option Value := none
  path : Option Value := none

/-- **A scope.** The layers above the lowest come with the highest first, loops with the innermost
first. -/
structure Scope where
  upper : List Layer := []
  lowest : Layer := .constants
  loops : List Loop := []
  autoescape : Bool := true
  request : Option Request := none
  /-- The name of the template being rendered. -/
  templateName : Value := .str "unknown"
  /-- Whether a template is being rendered. -/
  bound : Bool := false
  /-- The first layer that was pushed, once it has been taken off. -/
  released : Option Layer := none
  /-- The number of the next value that gets one. -/
  nextNumber : Nat := Value.firstNumber
  /-- What is left of the lists that items were taken from. -/
  remains : Remains := []

namespace Scope

/-- A new scope with the given variables above the constants. All values get numbers. -/
def create (layer : Option Layer) (autoescape : Bool) (request : Option Request) : Scope :=
  match layer with
  | none => { autoescape, request }
  | some layer =>
    { upper := [layer.given], autoescape, request, nextNumber := layer.given.freeNumber }

/-- All layers, the highest first. -/
def layers (s : Scope) : List Layer := s.upper ++ [s.lowest]

/-- The layer that assignments go to. -/
def top (s : Scope) : Layer := s.upper.head?.getD s.lowest

/-- Changes the layer that assignments go to. -/
def modifyTop (s : Scope) (f : Layer → Layer) : Scope :=
  match s.upper with
  | [] => { s with lowest := f s.lowest }
  | layer :: rest => { s with upper := f layer :: rest }

/-- The value of a variable: that in the highest layer that has it. -/
def get? (s : Scope) (key : Value) : Option Value := s.layers.findSome? (·.get? key)

/-- Whether a variable is set in some layer. -/
def has (s : Scope) (key : Value) : Bool := s.layers.any (·.has key)

/-- Sets a variable in the highest layer. -/
def set (s : Scope) (key value : Value) : Scope := s.modifyTop (·.set key value)

/-- Sets a variable in the first of the layers that has it. -/
def setFirst (key value : Value) : List Layer → Option (List Layer)
  | [] => none
  | layer :: rest =>
    if layer.has key then some (layer.set key value :: rest)
    else (setFirst key value rest).map (layer :: ·)

/-- **Sets a variable where it is set already,** in the highest layer that has it, else in the
highest layer. -/
def setUpward (s : Scope) (key value : Value) : Scope :=
  match setFirst key value s.upper with
  | some upper => { s with upper }
  | none =>
    if s.lowest.has key then { s with lowest := s.lowest.set key value } else s.set key value

/-- Removes a variable from the highest layer. -/
def delete (s : Scope) (key : Value) : Scope := s.modifyTop (·.erase key)

/-- Sets a variable that is not set, and answers its value. -/
def setDefault (s : Scope) (key value : Value) : Value × Scope :=
  match s.get? key with
  | some v => (v, s)
  | none => (value, s.set key value)

/-- Puts a layer on top. -/
def push (s : Scope) (layer : Layer) : Scope := { s with upper := layer :: s.upper }

/-- **Takes the highest layer off,** unless it is the lowest too. -/
def pop (s : Scope) : Option (Layer × Scope) :=
  match s.upper with
  | [] => none
  | [layer] => some (layer, { s with upper := [], released := s.released.or (some layer) })
  | layer :: rest => some (layer, { s with upper := rest })

/-- The error of taking the lowest layer off. -/
def cannotPop : HostError := { kind := "ContextPopException", text := "" }

/-- The layer that the scope was created with: the first one that was pushed. -/
def firstPushed (s : Scope) : Layer := s.released.getD (s.upper.getLast?.getD [])

/-- **A value as it is now,** without what has been taken from its lists. -/
def current (s : Scope) (v : Value) : Value :=
  if s.remains.isEmpty then v else v.reduced s.remains

/-- Takes an item from a list, of which some others are left. -/
def take (s : Scope) (number left : Nat) : Scope :=
  { s with remains := (number, left) :: s.remains }

/-- The scope with all variables as they are now. -/
def refreshed (s : Scope) : Scope :=
  if s.remains.isEmpty then s
  else
    { s with upper := s.upper.map (·.reduced s.remains), lowest := s.lowest.reduced s.remains }

/-- A value with numbers for its parts. -/
def number (s : Scope) (v : Value) : Value × Scope :=
  let (v, nextNumber) := v.numbered.run s.nextNumber
  (v, { s with nextNumber })

/-- The scope with numbers for all values in its variables. -/
def numberAll (s : Scope) : Scope :=
  let (upper, nextNumber) := (s.upper.mapM Layer.numbered).run s.nextNumber
  let (lowest, nextNumber) := s.lowest.numbered.run nextNumber
  { s with upper, lowest, nextNumber }

/-- All visible variables as one layer. -/
def flatten (s : Scope) : Layer := s.layers.reverse.foldl Layer.setAll []

/-- The scope as a value: its layers from the lowest on. -/
def toValue (s : Scope) : Value := .scope 0 s.layers.reverse

/-- Enters a loop: a new layer and new counters. -/
def enterLoop (s : Scope) (length : Int) : Scope :=
  { s.push [] with loops := ⟨0, length⟩ :: s.loops }

/-- Leaves the innermost loop and takes the highest layer off. -/
def leaveLoop (s : Scope) : Except HostError Unit × Scope :=
  let left (s : Scope) := { s with loops := s.loops.tail }
  match s.pop with
  | some (_, rest) => (.ok (), left rest)
  | none => (.error cannotPop, left s)

/-- Sets the number of finished rounds of the innermost loop. -/
def setCount (s : Scope) (count : Int) : Scope :=
  match s.loops with
  | [] => s
  | loop :: rest => { s with loops := { loop with count } :: rest }

/-- **The loop `depth` levels out** from the innermost one, if there is one. There is nothing inside
of the innermost loop to ask for. -/
def loopAt (s : Scope) (depth : Int) : Except HostError (Option Loop) :=
  if depth < 0 then .error (.indexError "list index out of range")
  else .ok s.loops[depth.toNat]?

/-- The dictionaries of loops, innermost first, nested in each other. -/
def nestLoops : List Loop → Value
  | [] => .dict 0 []
  | loop :: around => loop.toDict (nestLoops around)

/-- The number of running loops that are not more than `depth` levels out. A depth beyond the
outermost loop counts from the outermost loop inwards again. -/
def loopsWithin (s : Scope) (depth : Int) : Nat :=
  let n : Int := s.loops.length
  let kept := if depth ≤ n then n - depth else max 0 (2 * n - depth)
  (n - kept).toNat

/-- The dictionary of the loop `depth` levels out from the innermost one, with those around it. -/
def loopDict (s : Scope) (depth : Int) : Value := nestLoops (s.loops.drop (s.loopsWithin depth))

end Scope

end Galley
