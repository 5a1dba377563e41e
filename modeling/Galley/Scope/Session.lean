import Galley.Scope
import Galley.Value.Iterate

/-!
# Working with a scope

A tag that takes the scope reads and changes it by operations, one after the other. A session keeps
track of what was entered and not left again: a layer stays in the scope when the session ends, but
loops and templates are left.

* `Layer.ofValue`: the layer that a value is turned into.
* `Operation`, `Answer`: what can be done with a scope, and what comes of it.
* `Session.perform`, `Session.close`: one operation; the end of a session.
-/

namespace Galley

namespace Layer

/-- The two members of an entry that comes as a sequence; `i` counts the entries. -/
def entryOf (i : Nat) (v : Value) : Except HostError (Value × Value) := do
  let notASequence := HostError.typeError
    ("cannot convert dictionary update sequence element #" ++ toString i ++ " to a sequence")
  match v.walk? with
  | none => throw notASequence
  | some walk =>
    match walk.ending with
    | some e => throw (if e.kind = "TypeError" then notASequence else e)
    | none =>
      match walk.items with
      | [key, value] => do
        Value.checkKey key
        return (key, value)
      | items =>
        throw (.valueError ("dictionary update sequence element #" ++ toString i ++
          " has length " ++ toString items.length ++ "; 2 is required"))

/-- The entries that come as sequences; `i` counts them. -/
def entriesFrom (i : Nat) : List Value → Except HostError (List (Value × Value))
  | [] => .ok []
  | v :: rest => do return (← entryOf i v) :: (← entriesFrom (i + 1) rest)

/-- **The layer that a value is turned into:** a copy of a dictionary, or the entries of a
sequence of pairs. -/
def ofValue (v : Value) : Except HostError Layer := do
  match v with
  | .dict _ entries => return entries
  | v =>
    match v.walk? with
    | none => throw v.notIterable
    | some walk =>
      let entries ← entriesFrom 0 walk.items
      match walk.ending with
      | some e => throw e
      | none => return ofEntries entries

/-- The layer of named values. -/
def ofNamed (named : List (String × Value)) : Layer :=
  ofEntries (named.map fun (name, v) => (.str name, v))

end Layer

/-- An operation on a scope. -/
inductive Operation where
  /-- Pushes one layer made of at most one value, and of named values. Another scope stands for its
  layers above the constants. -/
  | push (layers : List Value) (named : List (String × Value))
  | enterLoop (length : Int)
  | bindTemplate (name : Option String)
  /-- Leaves what was entered last. -/
  | exit
  | pop
  | get (key : Value)
  | getOr (key default : Value)
  | set (key value : Value)
  | delete (key : Value)
  | has (key : Value)
  | setDefault (key value : Value)
  | setUpward (key value : Value)
  | flatten
  /-- Lists the layers, the highest first. -/
  | layers
  | describe
  | update (value : Value)
  | equals (value : Value)
  /-- Sets the counter of the innermost loop. -/
  | setCount (count : Int)
  | loop (depth : Int)
  | loopDict (depth : Int)
  /-- Looks a name up in the scope as in any value. -/
  | member (name : String)
  | autoescape (enabled : Bool)

/-- What comes of an operation. -/
inductive Answer where
  | nothing
  | value (v : Value)
  | flag (b : Bool)
  | text (s : String)
  | layers (layers : List Layer)
  | loop (loop : Option Loop)

/-- What was entered and is to be left again. -/
inductive Entered where
  | layer
  | loop
  | template

/-- A scope being worked with, and what was entered, the latest first. -/
structure Session where
  scope : Scope
  entered : List Entered := []

namespace Scope

/-- The error of a variable that is not set. -/
def unset (key : Value) : HostError :=
  match key.repr with
  | .ok shown => { kind := "KeyError", text := shown }
  | .error e => e

/-- The layers that a value brings in: those of another scope above its constants, else one. -/
def layerValues : Value → List Value
  | .scope _ layers => layers.tail.map (.dict 0)
  | v => [v]

/-- Pushes one layer. -/
def pushValues (s : Scope) (layers : List Value) (named : List (String × Value)) :
    Except HostError Scope := do
  if named.any (·.1 = "self") then
    throw (.typeError "BaseContext.push() got multiple values for argument 'self'")
  if named.any (·.1 = "context") then
    throw (.typeError "ContextDict.__init__() got multiple values for argument 'context'")
  match layers.flatMap layerValues with
  | [] => return s.push (Layer.ofNamed named)
  | [v] => return s.push (Layer.setAll (← Layer.ofValue v) (Layer.ofNamed named))
  | values =>
    throw (.typeError ("dict expected at most 1 argument, got " ++ toString values.length))

/-- Whether the members of a value can be asked for with brackets. -/
def hasItems : Value → Bool
  | .text .. | .bytes .. | .list .. | .tuple .. | .dict .. | .range .. | .scope .. => true
  | _ => false

/-- The layer that a scope is updated with: of another scope the highest one. -/
def updateLayer (v : Value) : Except HostError Layer :=
  match v with
  | .scope _ layers =>
    match layers.tail.getLast? with
    | some layer => .ok layer
    | none => .error (.indexError "pop from empty list")
  | v =>
    if hasItems v then Layer.ofValue v
    else .error (.typeError "other_dict must be a mapping (dictionary-like) object.")

/-- Removes a variable that is set in the highest layer. -/
def deleteSet (s : Scope) (key : Value) : Except HostError Scope := do
  Value.checkKey key
  if s.top.has key then return s.delete key else throw (unset key)

/-- The attributes of a scope that can be looked up like variables: those that hold nothing. -/
def emptyAttribute? : String → Option Value
  | "__hash__" => some .none
  | "__annotations__" => some (.dict 0 [])
  | _ => none

/-- Leaves the scope of a template. -/
def release (s : Scope) : Scope := { s with bound := false }

/-- Leaves what was entered. -/
def leave (s : Scope) : Entered → Except HostError Unit × Scope
  | .layer =>
    match s.pop with
    | some (_, rest) => (.ok (), rest)
    | none => (.error cannotPop, s)
  | .loop => s.leaveLoop
  | .template => (.ok (), s.release)

end Scope

namespace Session

/-- A scope that only answers. -/
def answer (s : Session) (outcome : Except HostError Answer) : Except HostError Answer × Session :=
  (outcome, s)

/-- A scope that is changed unless something goes wrong; something may be entered. -/
def change (s : Session) (outcome : Except HostError Scope) (entered : Option Entered) :
    Except HostError Answer × Session :=
  match outcome with
  | .ok scope => (.ok .nothing, ⟨scope, entered.toList ++ s.entered⟩)
  | .error e => (.error e, s)

/-- An answer or a change that depends on a variable. -/
def withKey {α : Type} (key : Value) (a : α) : Except HostError α := do
  Value.checkKey key
  return a

/-- **One operation.** -/
def perform (s : Session) : Operation → Except HostError Answer × Session
  | .push layers named => s.change (s.scope.pushValues layers named) (some .layer)
  | .enterLoop length => s.change (.ok (s.scope.enterLoop length)) (some .loop)
  | .bindTemplate name =>
    if s.scope.bound then
      s.answer (.error
        { kind := "RuntimeError", text := "Context is already bound to a template" })
    else
      let templateName := match name with
        | none | some "" => "unknown"
        | some name => name
      (.ok (.text templateName),
        ⟨{ s.scope with bound := true, templateName := .str templateName },
          .template :: s.entered⟩)
  | .exit =>
    match s.entered with
    | [] => s.answer (.error (.indexError "pop from empty list"))
    | last :: rest =>
      let (outcome, scope) := s.scope.leave last
      (outcome.map fun _ => .nothing, ⟨scope, rest⟩)
  | .pop =>
    match s.scope.pop with
    | some (layer, scope) => (.ok (.value (.dict 0 layer)), { s with scope })
    | none => s.answer (.error Scope.cannotPop)
  | .get key => s.answer do
    Value.checkKey key
    match s.scope.get? key with
    | some v => return .value v
    | none => throw (Scope.unset key)
  | .getOr key default => s.answer (withKey key (.value ((s.scope.get? key).getD default)))
  | .set key value => s.change (withKey key (s.scope.set key value)) none
  | .delete key => s.change (s.scope.deleteSet key) none
  | .has key => s.answer (withKey key (.flag (s.scope.has key)))
  | .setDefault key value =>
    match withKey key (s.scope.setDefault key value) with
    | .ok (v, scope) => (.ok (.value v), { s with scope })
    | .error e => s.answer (.error e)
  | .setUpward key value => s.change (withKey key (s.scope.setUpward key value)) none
  | .flatten => s.answer (.ok (.value (.dict 0 s.scope.flatten)))
  | .layers => s.answer (.ok (.layers s.scope.layers))
  | .describe => s.answer (s.scope.toValue.repr.map .text)
  | .update v => s.change (do return s.scope.push (← Scope.updateLayer v)) none
  | .equals v => s.answer (.ok (.flag (s.scope.toValue.eq v)))
  | .setCount count =>
    if s.scope.loops.isEmpty then s.answer (.error (.indexError "list index out of range"))
    else s.change (.ok (s.scope.setCount count)) none
  | .loop depth => s.answer ((s.scope.loopAt depth).map .loop)
  | .loopDict depth => s.answer (.ok (.value (s.scope.loopDict depth)))
  | .member name =>
    s.answer <|
      match s.scope.toValue.member name with
      | .found v => .ok (.value v)
      | .failed e => .error e
      | .absent =>
        match Scope.emptyAttribute? name with
        | some v => .ok (.value v)
        | none => .error { kind := "LookupFailed", text := name }
  | .autoescape enabled => s.change (.ok { s.scope with autoescape := enabled }) none

/-- Operations one after the other, each in the session that the one before it left. -/
def performAll (s : Session) : List Operation → List (Except HostError Answer) × Session
  | [] => ([], s)
  | operation :: rest =>
    let (outcome, s) := s.perform operation
    let (others, s) := s.performAll rest
    (outcome :: others, s)

/-- **The end of a session:** loops and templates that were entered are left, the latest first. -/
def close (s : Session) : Scope :=
  s.entered.foldl (fun scope entered =>
    match entered with
    | .layer => scope
    | entered => (scope.leave entered).2) s.scope

end Session

end Galley
