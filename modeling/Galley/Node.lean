import Galley.Condition
import Galley.Expression

/-!
# Templates as trees

A compiled template is a list of nodes. Every node knows the place of the tag it was made from.

* `Node`: the kinds of node.
* `LoopHeader`, `RouteCall`, `TagCall`: what the larger ones hold.
-/

namespace Galley

/-- What a loop says about itself. -/
structure LoopHeader where
  names : List String
  /-- The place of all names. -/
  namesSpan : Span
  iterable : Expression
  backwards : Bool

/-- A route to be reversed into a path, and the variable that the path is assigned to. -/
structure RouteCall where
  route : Expression
  positional : List Expression
  keyword : List (String × Expression)
  target : Option String

/-- A call of a tag of a library, and the variable that its result is assigned to. -/
structure TagCall where
  name : String
  function : Function
  takesScope : Bool
  positional : List Expression
  keyword : List (String × Expression)
  target : Option String

/-- **A node of a template.** -/
inductive Node where
  | text (span : Span) (text : String)
  /-- A text literal to be translated, without filters. -/
  | translated (span : Span) (text : String)
  | output (span : Span) (expression : Expression)
  | autoescape (span : Span) (enabled : Bool) (body : List Node)
  /-- A condition with both branches; a chain of conditions goes on in the second one. -/
  | choice (span : Span) (condition : Condition Expression) (truthy falsey : List Node)
  | loop (span : Span) (header : LoopHeader) (body empty : List Node)
  | load (span : Span)
  | route (span : Span) (call : RouteCall)
  | call (span : Span) (call : TagCall)

/-- The place of a node's tag. -/
def Node.span : Node → Span
  | text s _ | translated s _ | output s _ | autoescape s _ _ | choice s _ _ _ | loop s _ _ _
  | load s | route s _ | call s _ => s

end Galley
