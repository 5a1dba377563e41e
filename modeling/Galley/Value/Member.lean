import Galley.Text.Case
import Galley.Text.Utf8
import Galley.Value.Compare

/-!
# Looking up members

A name behind a dot is looked up as a key, then as an attribute, then as an index. What is found is
called if it can be called without arguments.

* `Value.member`: the lookup.
* `Value.called`: the call.
-/

namespace Galley.Value

/-- What a lookup comes to. -/
inductive Lookup where
  | absent
  | found (v : Value)
  | failed (e : HostError)

/-- What every function of a value has. -/
def methodIdentity : Identity :=
  ⟨0, "builtin_function_or_method", "<built-in method>", "<built-in method>", false, .none⟩

/-- A function of a value that is called without arguments. -/
def method (result : Except HostError Value) : Value :=
  object methodIdentity [] (some { result })

/-- A function of a value that cannot be called without arguments. -/
def methodWithArguments : Value :=
  object methodIdentity [] (some { result := .ok .none, needsArgument := true })

/-- The words of a text. -/
def wordsOf (s : List Char) : List (List Char) :=
  (s.splitBy fun a b => Text.isBlank a == Text.isBlank b).filter fun word => !Text.allBlank word

/-- The attributes of texts. -/
def textAttribute? (s : String) (name : String) : Option Value :=
  let changed (f : List Char → List Char) := some (method (.ok (str (String.ofList (f s.toList)))))
  match name with
  | "upper" => changed Text.upper
  | "lower" => changed Text.lower
  | "title" => changed Text.title
  | "split" =>
    some (method (.ok (list 0 ((wordsOf s.toList).map fun word => str (String.ofList word)))))
  | "isdigit" => some (method (.ok (bool (s != "" && s.toList.all Text.isDigit))))
  | "join" => some methodWithArguments
  | _ => .none

/-- The attributes of dictionaries. -/
def dictAttribute? (entries : List (Value × Value)) (name : String) : Option Value :=
  match name with
  | "items" => some (method (.ok (view .items entries)))
  | "keys" => some (method (.ok (view .keys entries)))
  | "values" => some (method (.ok (view .values entries)))
  | "copy" => some (method (.ok (dict 0 entries)))
  | "get" | "pop" => some methodWithArguments
  | _ => .none

/-- The function that takes the last item of a list. -/
def takeLast (number : Nat) (items : List Value) : Value :=
  match items.getLast? with
  | some last =>
    let takes := if number = 0 then .none else some (number, items.length - 1)
    object methodIdentity [] (some { result := .ok last, takes })
  | .none => method (.error (.indexError "pop from empty list"))

/-- The attributes of lists. -/
def listAttribute? (number : Nat) (items : List Value) (name : String) : Option Value :=
  match name with
  | "copy" => some (method (.ok (list 0 items)))
  | "pop" => some (takeLast number items)
  | "append" | "count" => some methodWithArguments
  | _ => .none

/-- The attributes of a floating point number. -/
def floatAttribute? (v : Value) (name : String) : Option Value :=
  match name, v with
  | "real", v => some v
  | "is_integer", float x => some (method (.ok (bool (Binary.decode x).isInteger)))
  | "is_integer", _ => some (method (.ok (bool false)))
  | _, _ => .none

/-- The attributes of bytes. -/
def bytesAttribute? (data : List UInt8) (name : String) : Option Value :=
  if name = "decode" then
    some <| method <|
      match Text.decodeUtf8 data with
      | .ok s => .ok (str s)
      | .error e => .error { kind := "UnicodeDecodeError", text := e.message }
  else .none

/-- The attribute of a value, which may raise an error when it is read. -/
def attribute? (v : Value) (name : String) : Option (Except HostError Value) :=
  match v with
  | bool b => if name = "real" then some (.ok (int (if b then 1 else 0))) else .none
  | int n => if name = "real" then some (.ok (int n)) else .none
  | float _ | nan _ => (floatAttribute? v name).map .ok
  | text _ s => (textAttribute? s name).map .ok
  | bytes _ data => (bytesAttribute? data name).map .ok
  | list number items => (listAttribute? number items name).map .ok
  | dict _ entries => (dictAttribute? entries name).map .ok
  | range _ start _ _ => if name = "start" then some (.ok (int start)) else .none
  | object _ attributes _ => attributes.lookup name
  | _ => .none

/-- The value of a key in the layers of a scope, the lowest first. -/
def lookupLayers? (layers : List (List (Value × Value))) (key : Value) : Option Value :=
  layers.reverse.findSome? fun layer => lookupKey? layer key

/-- The member that a text is the key of. -/
def keyed? (v : Value) (key : String) : Option Value :=
  match v with
  | dict _ entries => lookupKey? entries (str key)
  | scope _ layers => lookupLayers? layers (str key)
  | _ => .none

/-- The member at an index. -/
def indexed? (v : Value) (n : Int) : Option Value :=
  match v with
  | dict _ entries => lookupKey? entries (int n)
  | scope _ layers => lookupLayers? layers (int n)
  | _ =>
    if n < 0 then .none
    else
      match v with
      | text _ s => s.toList[n.toNat]?.map fun c => str (String.ofList [c])
      | bytes _ data => data[n.toNat]?.map fun b => int b.toNat
      | list _ items | tuple _ items => items[n.toNat]?
      | range _ start stop step =>
        if n < rangeLength start stop step then some (int (start + n * step)) else .none
      | _ => .none

/-- **The member with a name:** a key, else an attribute, else an index if the name is a number. -/
def member (v : Value) (name : String) : Lookup :=
  match keyed? v name with
  | some w => .found w
  | .none =>
    match attribute? v name with
    | some (.ok w) => .found w
    | some (.error e) => .failed e
    | .none =>
      match (Integer.read? name.toList).bind (indexed? v) with
      | some w => .found w
      | .none => .absent

/-- What calling a value takes from a list. -/
def takes? : Value → Option (Nat × Nat)
  | object _ _ (some call) => call.takes
  | _ => .none

/-- Whether an object has an attribute that counts as true. An attribute that cannot be found does
not. -/
def flagged (attributes : List (String × Except HostError Value)) (name : String) :
    Except HostError Bool :=
  match attributes.lookup name with
  | .none => .ok false
  | some (.ok v) => v.truth
  | some (.error e) => if e.kind = "AttributeError" then .ok false else .error e

/-- **The value of a value in a template.** What can be called is called, unless it asks not to be.
It is missing if it would change something or needs arguments. -/
def called (v : Value) : Except HostError (Option Value) :=
  match v with
  | object _ attributes (some call) => do
    if ← flagged attributes "do_not_call_in_templates" then return some v
    if ← flagged attributes "alters_data" then return .none
    if call.needsArgument then return .none
    match call.result with
    | .ok w => return some w
    | .error e => if e.kind = "TypeError" && !call.inspectable then return .none else throw e
  | v => .ok (some v)

end Galley.Value
