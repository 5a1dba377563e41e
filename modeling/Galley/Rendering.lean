import Galley.Scope

/-!
# Computations in a scope

What happens during a render reads and changes a scope, and may go wrong. The scope is kept also
after a fault, so that what was changed before it stays changed.

* `Rendering`: a computation in a scope.
* `Rendering.ending`: a change that is made in any case.
* `Rendering.current`: a value as it is by now.
-/

namespace Galley

/-- A computation in a scope. The scope is there also after a fault. -/
abbrev Rendering := ExceptT Fault (StateM Scope)

namespace Rendering

variable {α : Type}

/-- A computation that the application performs. -/
def host (outcome : Except HostError α) : Rendering α :=
  match outcome with
  | .ok a => pure a
  | .error e => throw (.host e)

/-- A computation that leaves the scope alone. -/
def ofExcept (outcome : Except Fault α) : Rendering α :=
  match outcome with
  | .ok a => pure a
  | .error f => throw f

/-- A fault of the template at a place. -/
def fail (cause : Cause) (span : Span) : Rendering α := throw (.template (.here cause span))

/-- **A computation followed by a change of the scope,** which happens in any case. A fault of the
change takes the place of any other. -/
def ending (first : Rendering α) (last : Scope → Except HostError Unit × Scope) : Rendering α :=
  fun scope =>
    let (outcome, scope) := first.run.run scope
    match last scope with
    | (.ok (), scope) => (outcome, scope)
    | (.error e, scope) => (.error (.host e), scope)

/-- A computation whose faults are changed. -/
def mapFault (first : Rendering α) (f : Fault → Fault) : Rendering α :=
  fun scope =>
    let (outcome, scope) := first.run.run scope
    (outcome.mapError f, scope)

/-- **A value as it is by now.** Other computations may have taken items from its lists. -/
def current (v : Value) : Rendering Value := do return (← get).current v

/-- A value in which everything has a number that can have one. -/
def numbered (v : Value) : Rendering Value := do
  let (v, scope) := (← get).number v
  set scope
  return v

end Rendering

end Galley
