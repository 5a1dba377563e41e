import Galley.Compile
import Galley.Render
import Galley.Report

/-!
# Templates

A template is compiled once and rendered as often as wanted. The errors that leave a template are
those of the application: an error of the template itself carries its report as its text.

* `Template.compile`: a template from its text.
* `Scope.ofContext`: the scope for the variables of the application.
* `Template.render`: the text of a template.
-/

namespace Galley

/-- A compiled template. -/
structure Template where
  source : List Char
  name : Option String
  nodes : List Node

/-- The error that the application sees for an error of a template. -/
def TemplateError.reported (e : TemplateError) (source : List Char) (name : Option String) :
    HostError :=
  match Report.report? source e name with
  | some report => e.surface report
  | none => Report.collision

/-- The error that the application sees for a fault. -/
def Fault.reported (f : Fault) (source : List Char) (name : Option String) : HostError :=
  match f with
  | .template e => e.reported source name
  | .host e => e

/-- The scope for variables, which come as a dictionary or not at all. -/
def Scope.ofContext (context : Value) (autoescape : Bool) (request : Option Request) :
    Except HostError Scope :=
  match context with
  | .none => .ok (Scope.create none autoescape request)
  | .dict _ entries => .ok (Scope.create (some entries) autoescape request)
  | v => .error (.typeError ("context must be a dict rather than " ++ v.typeName ++ "."))

namespace Template

/-- **A template from its text,** whose `load` tags find the given libraries. -/
def compile (source : String) (name : Option String) (libraries : List (String × Library)) :
    Except HostError Template :=
  match Galley.compile source.toList libraries with
  | .ok nodes => .ok ⟨source.toList, name, nodes⟩
  | .error e => .error (e.reported source.toList name)

/-- The name that a scope knows a template by. -/
def scopeName (name : Option String) : Value :=
  match name with
  | some s => .str (if s = "" then "unknown" else s)
  | none => .str "unknown"

/-- The text of a template in a scope, and the scope that is left. -/
def renderIn (t : Template) (routes : RouteTable) (scope : Scope) :
    Except HostError String × Scope :=
  let bound := { scope with bound := true, templateName := scopeName t.name }
  let (outcome, left) := (renderAll routes t.nodes).run.run bound
  (outcome.mapError (·.reported t.source t.name), { left with bound := false })

/-- **The text of a template** for the variables of the application, and the variables as they are
left. -/
def render (t : Template) (routes : RouteTable) (context : Value) (autoescape : Bool)
    (request : Option Request) : Except HostError String × Layer :=
  match Scope.ofContext context autoescape request with
  | .error e => (.error e, [])
  | .ok scope =>
    let (outcome, left) := t.renderIn routes scope
    (outcome, left.firstPushed.reduced left.remains)

end Template

end Galley
