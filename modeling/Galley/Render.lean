import Galley.Condition.Evaluate
import Galley.Node
import Galley.Route
import Galley.Value.Content

/-!
# Rendering

Nodes are rendered one after the other in a scope that they may change. What a node changes stays
changed if a later node goes wrong, except for what belongs to a block: a loop is always left, and
the autoescape setting is always restored.

* `LoopHeader.run`: the rounds of a loop.
* `Node.render`, `renderAll`: the text of a node, and of nodes.
-/

namespace Galley

open Rendering

/-- The text that is written for a value in a scope. -/
def written (v : Option Value) : Rendering String := do
  host (Value.render v (← get).autoescape)

/-- The value of an argument of a tag; a missing one counts as an empty text. -/
def argumentValue (e : Expression) : Rendering Value := do
  numbered ((← e.resolve .strict).getD (.str ""))

/-- The values of arguments, once all of them are known. -/
def argumentValues (positional : List Expression) (keyword : List (String × Expression)) :
    Rendering (List Value × List (String × Value)) := do
  let values ← positional.mapM argumentValue
  let named ← keyword.mapM fun (k, e) => return (k, ← argumentValue e)
  let scope ← get
  return (values.map scope.current, named.map fun (k, v) => (k, scope.current v))

/-- Assigns a value to a variable. -/
def assign (name : String) (v : Value) : Rendering Unit := do
  let v ← numbered v
  modify (·.set (.str name) v)

/-- What is done with the result of a tag: it is assigned to a variable or written. -/
def deliver (target : Option String) (v : Value) : Rendering String := do
  match target with
  | some name =>
    assign name v
    return ""
  | none => written (some v)

namespace LoopHeader

/-- The items that a loop goes through. -/
def items (h : LoopHeader) : Rendering (List Value) := do
  match ← h.iterable.resolve .strict with
  | none | some .none => return []
  | some v =>
    match v.walk? with
    | none => fail (.raised v.notIterable "here") h.iterable.span
    | some walk =>
      match walk.ending with
      | some e => fail (.raised e "while iterating this") h.iterable.span
      | none => return if h.backwards then walk.items.reverse else walk.items

/-- The values that an item is unpacked to, one for each name. -/
def unpack (h : LoopHeader) (item : Value) : Rendering (List Value) := do
  let mismatch (actual : Int) :=
    fail (.unpackMismatch h.names.length actual h.iterable.span) h.namesSpan
  match item.walk? with
  | none => mismatch 1
  | some walk =>
    match walk.ending with
    | some e => fail (.raised e "while iterating this") h.iterable.span
    | none =>
      if walk.items.length = h.names.length then return walk.items
      else mismatch walk.items.length

/-- Assigns an item to the names of a loop. -/
def bind (h : LoopHeader) (item : Value) : Rendering Unit := do
  let item ← current item
  match h.names with
  | [name] => assign name item
  | names => (names.zip (← h.unpack item)).forM fun (name, v) => assign name v

/-- The rounds of a loop from round `count` on. -/
def rounds (h : LoopHeader) (body : Rendering String) (count : Nat) :
    List Value → Rendering (List String)
  | [] => return []
  | item :: rest => do
    modify (·.setCount count)
    h.bind item
    return (← body) :: (← rounds h body (count + 1) rest)

/-- **A loop.** Its rounds have a layer and counters of their own; without items what stands for an
empty loop is rendered instead. -/
def run (h : LoopHeader) (body empty : Rendering String) : Rendering String := do
  match ← h.items with
  | [] => empty
  | items =>
    modify (·.enterLoop items.length)
    let texts ← ending (h.rounds body 0 items) Scope.leaveLoop
    return String.join texts

end LoopHeader

/-- **A route** becomes a path. One that cannot be reversed is empty if it was to be assigned. -/
def RouteCall.run (c : RouteCall) (routes : RouteTable) : Rendering String := do
  let name ← argumentValue c.route
  let (positional, keyword) ← argumentValues c.positional c.keyword
  let name ← current name
  let request := (← get).request
  let current := request.bind fun r => r.currentApp.or r.namespaceName
  let distinct := keyword.foldl (fun done (k, v) => Library.register k v done) []
  match routes.reverse name positional distinct current with
  | .ok path => deliver c.target (.str path)
  | .error e =>
    if e.kind = "NoReverseMatch" && c.target.isSome then return "" else throw (.host e)

/-- **A call of a tag.** A function that is not given the scope cannot change it. -/
def TagCall.run (c : TagCall) (span : Span) : Rendering String := do
  let (positional, keyword) ← argumentValues c.positional c.keyword
  if c.takesScope then modify (·.refreshed)
  let scope ← get
  let arguments := if c.takesScope then scope.toValue :: positional else positional
  let (outcome, scope) := c.function.call arguments keyword scope
  if c.takesScope then set scope.numberAll
  match outcome with
  | .ok v => deliver c.target v
  | .error e => fail (.raised e "here") span

/-- Whether a condition holds. -/
def verdict (c : Condition Expression) : Rendering Bool := do
  host (← c.evaluate).truth

/-- A body with another autoescape setting, which is restored behind it. -/
def withAutoescape (enabled : Bool) (body : Rendering String) : Rendering String := do
  let before := (← get).autoescape
  modify fun s => { s with autoescape := enabled }
  ending body fun s => (.ok (), { s with autoescape := before })

/-- A text that becomes a part of another one. -/
def closed (part : Rendering String) : Rendering String :=
  part.mapFault fun
    | .host e => .host e.leavingText
    | f => f

mutual

/-- **The text of a node.** -/
def Node.render (routes : RouteTable) : Node → Rendering String
  | .text _ text => return text
  | .translated _ text => return translate text
  | .output _ e => do written (← e.resolve .lenient)
  | .autoescape _ enabled body => withAutoescape enabled (renderAll routes body)
  | .choice _ condition truthy falsey => do
    if ← verdict condition then renderAll routes truthy else renderAll routes falsey
  | .loop _ header body empty => header.run (renderAll routes body) (renderAll routes empty)
  | .load _ => return ""
  | .route _ call => call.run routes
  | .call span call => call.run span

/-- **The text of nodes.** -/
def renderAll (routes : RouteTable) : List Node → Rendering String
  | [] => return ""
  | node :: rest => do return (← closed (node.render routes)) ++ (← renderAll routes rest)

end

end Galley
