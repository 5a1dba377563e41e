import Galley.Error
import Galley.Number.Integer
import Galley.Number.Shortest
import Galley.Text.Quoted

/-!
# Values

The values that an application hands to a template, and that filters and tags compute.

* `Value`: the type.
* `Value.repr?`: how a value is shown to a programmer; `Value.text?`: how it is written out.
* `Value.truth`: whether a value counts as true.
-/

namespace Galley

/-- How far a text is trusted: not at all, as safe to be written out as it is, or because it
announces markup of its own. -/
inductive TextKind where
  | plain
  | safe
  | markup
deriving DecidableEq, Inhabited

/-- The part of a dictionary that a view shows. -/
inductive DictPart where
  | keys
  | values
  | items
deriving DecidableEq

/-- What every object of the application has. Two objects are equal only if they are the same, and
that they are if they have one number; number zero is that of an object still to be made. -/
structure Identity where
  number : Nat
  typeName : String
  repr : String
  text : String
  /-- Whether the object announces markup. -/
  markup : Bool := false
  /-- The error that asking for its truth raises. -/
  truth : Option HostError := none

/-- How an object is called without arguments. -/
structure Callable (α : Type) where
  /-- What every call makes anew. -/
  result : Except HostError α
  /-- Whether a call without arguments is refused. -/
  needsArgument : Bool := false
  /-- Whether it can be found out that arguments are needed. -/
  inspectable : Bool := true
  /-- The number of the list that the call takes the last item of, and how many it leaves. -/
  takes : Option (Nat × Nat) := none

/-- A value. What is built has a number: two values of one number are the same value, and number
zero is that of a value that is nowhere else. -/
inductive Value where
  | none
  | bool (b : Bool)
  | int (n : Int)
  | float (x : Float)
  /-- What is not a number. It is equal to nothing, but may be the same as itself. -/
  | nan (number : Nat)
  | text (kind : TextKind) (s : String)
  | bytes (number : Nat) (data : List UInt8)
  | list (number : Nat) (items : List Value)
  | tuple (number : Nat) (items : List Value)
  | dict (number : Nat) (entries : List (Value × Value))
  /-- A view of a dictionary. Views are built anew each time. -/
  | view (part : DictPart) (entries : List (Value × Value))
  | range (number : Nat) (start stop step : Int)
  /-- Items to be walked through, and the error that may end the walk. -/
  | stream (number : Nat) (items : List Value) (ending : Option HostError)
  /-- An object with its attributes; reading one may raise an error. -/
  | object (identity : Identity) (attributes : List (String × Except HostError Value))
    (call : Option (Callable Value))
  /-- Another scope, as its layers from the lowest on. -/
  | scope (number : Nat) (layers : List (List (Value × Value)))

instance : Inhabited Value := ⟨.none⟩

namespace Value

/-- A text that is not trusted. -/
def str (s : String) : Value := .text .plain s

/-- A text that is safe. -/
def safe (s : String) : Value := .text .safe s

/-- The name of a value's type. -/
def typeName : Value → String
  | .none => "NoneType"
  | bool _ => "bool"
  | int _ => "int"
  | float _ | nan _ => "float"
  | text .plain _ => "str"
  | text .safe _ => "SafeString"
  | text .markup _ => "HtmlStr"
  | bytes .. => "bytes"
  | list .. => "list"
  | tuple .. => "tuple"
  | dict .. => "dict"
  | view .keys _ => "dict_keys"
  | view .values _ => "dict_values"
  | view .items _ => "dict_items"
  | range .. => "range"
  | stream .. => "Iter"
  | object identity .. => identity.typeName
  | scope .. => "Context"

/-- Whether a text is marked as safe. -/
def isSafe : Value → Bool
  | text .safe _ => true
  | _ => false

/-- The text of a number that has one. -/
def boolText (b : Bool) : String := if b then "True" else "False"

/-- Texts with commas between them. -/
def commas (texts : List String) : String := ", ".intercalate texts

/-- A tuple of texts; one of length one has a comma too. -/
def tupleText : List String → String
  | [one] => "(" ++ one ++ ",)"
  | texts => "(" ++ commas texts ++ ")"

/-- The texts of entries in braces. -/
def dictText (entries : List (String × String)) : String :=
  "\x7b" ++ commas (entries.map fun (k, v) => k ++ ": " ++ v) ++ "\x7d"

/-- The text of a view. -/
def viewText (part : DictPart) (entries : List (String × String)) : String :=
  match part with
  | .keys => "dict_keys([" ++ commas (entries.map (·.1)) ++ "])"
  | .values => "dict_values([" ++ commas (entries.map (·.2)) ++ "])"
  | .items =>
    "dict_items([" ++ commas (entries.map fun (k, v) => "(" ++ k ++ ", " ++ v ++ ")") ++ "])"

mutual

/-- **How a value is shown.** There is no text of an integer with too many digits. -/
def repr? : Value → Option String
  | .none => some "None"
  | bool b => some (boolText b)
  | int n => Integer.text? n
  | float x => some (floatText x)
  | nan _ => some "nan"
  | text _ s => some (Text.quoted s)
  | bytes _ data => some (Text.quotedBytes data)
  | list _ items => (reprAll? items).map fun texts => "[" ++ commas texts ++ "]"
  | tuple _ items => (reprAll? items).map tupleText
  | dict _ entries => (reprEntries? entries).map dictText
  | view part entries => (reprEntries? entries).map (viewText part)
  | range _ start stop step => do
    let bounds ← [start, stop].mapM Integer.text?
    let last ← if step = 1 then some [] else (Integer.text? step).map fun t => [t]
    return "range(" ++ commas (bounds ++ last) ++ ")"
  | stream .. => some "<iter>"
  | object identity .. => some identity.repr
  | scope _ layers => (reprLayers? layers).map fun texts => "[" ++ commas texts ++ "]"

/-- The items of a list as they are shown. -/
def reprAll? : List Value → Option (List String)
  | [] => some []
  | v :: rest => do return (← repr? v) :: (← reprAll? rest)

/-- The entries of a dictionary as they are shown. -/
def reprEntries? : List (Value × Value) → Option (List (String × String))
  | [] => some []
  | (k, v) :: rest => do return (← repr? k, ← repr? v) :: (← reprEntries? rest)

/-- The layers of a scope as they are shown. -/
def reprLayers? : List (List (Value × Value)) → Option (List String)
  | [] => some []
  | layer :: rest => do return dictText (← reprEntries? layer) :: (← reprLayers? rest)

end

/-- How a value is shown, or the error for an integer that is too long. -/
def repr (v : Value) : Except HostError String :=
  match v.repr? with
  | some s => .ok s
  | .none => .error .tooManyDigits

/-- **How a value is written out.** Texts are written as they are, objects as they say. -/
def text? : Value → Option String
  | text _ s => some s
  | object identity .. => some identity.text
  | v => v.repr?

/-- How a value is written out, or the error for an integer that is too long. -/
def toText (v : Value) : Except HostError String :=
  match v.text? with
  | some s => .ok s
  | .none => .error .tooManyDigits

/-- The length of the longest sequence that there is room for. -/
def longestSequence : Nat := 10000000000

/-- The number of members of a range. -/
def rangeLength (start stop step : Int) : Nat :=
  if 0 < step then ((stop - start + step - 1) / step).toNat
  else if step < 0 then ((start - stop - step - 1) / -step).toNat
  else 0

/-- **Whether a value counts as true.** Nothing, zero and all that is empty count as false. -/
def truth : Value → Except HostError Bool
  | .none => .ok false
  | bool b => .ok b
  | int n => .ok (n != 0)
  | float x => .ok (x != 0.0)
  | nan _ => .ok true
  | text _ s => .ok (s != "")
  | bytes _ data => .ok (!data.isEmpty)
  | list _ items | tuple _ items => .ok (!items.isEmpty)
  | dict _ entries | view _ entries => .ok (!entries.isEmpty)
  | range _ start stop step => .ok (rangeLength start stop step != 0)
  | object identity .. =>
    match identity.truth with
    | some e => .error e
    | .none => .ok true
  | stream .. | scope .. => .ok true

end Value

end Galley
