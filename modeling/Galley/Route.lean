import Galley.Text.Percent
import Galley.Value.Compare

/-!
# Routes

A site has routes with names, and groups of routes under namespaces. A route is reversed into a path
by giving a value to each of its parameters.

* `Route`, `RouteGroup`, `RouteTable`: the routes of a site.
* `RouteTable.reverse`: the path of a route.
-/

namespace Galley

/-- A piece of a route: a text that stands for itself, or a parameter, which stands for any text
that is not empty and has no slash. -/
inductive RoutePiece where
  | text (text : String)
  | parameter (name : String)

/-- A route and its name. -/
structure Route where
  name : String
  pieces : List RoutePiece

/-- Routes that share the beginning of their paths. A group belongs to an application, which may
have several groups with different namespaces. -/
structure RouteGroup where
  start : String
  application : String
  space : String
  routes : List Route

/-- The routes of a site. -/
structure RouteTable where
  routes : List Route := []
  groups : List RouteGroup := []

/-- The error of a route that cannot be reversed. -/
def noRoute (text : String) : HostError := { kind := "NoReverseMatch", text }

namespace Route

/-- The names of the parameters. -/
def parameters (r : Route) : List String :=
  r.pieces.filterMap fun
    | .parameter name => some name
    | .text _ => none

/-- The pattern of a route as it is shown in errors. -/
def pattern (start : String) (r : Route) : String :=
  let shown := r.pieces.map fun
    | .text text => text
    | .parameter name => "(?P<" ++ name ++ ">[^/]+)"
  start ++ String.join shown ++ "\\Z"

/-- The values of the parameters, if there is one for each of them and no other. -/
def assign? (r : Route) (positional : List Value) (keyword : List (String × Value)) :
    Option (List (String × Value)) :=
  let names := r.parameters
  if positional.isEmpty then
    if names.all (keyword.map (·.1)).contains && (keyword.map (·.1)).all names.contains then
      some keyword
    else none
  else if positional.length = names.length then some (names.zip positional)
  else none

/-- Whether a text can stand for a parameter. -/
def isSegment (text : String) : Bool := text != "" && !text.toList.contains '/'

/-- The path that a route has with texts for its parameters, unless one of them cannot stand for
it. -/
def path? (r : Route) (texts : List (String × String)) : Option String :=
  let filled := r.pieces.mapM fun (piece : RoutePiece) =>
    match piece with
    | .text text => some text
    | .parameter name => (texts.lookup name).filter isSegment
  filled.map String.join

end Route

namespace RouteTable

/-- The error of a route that none of the routes of its name fits. -/
def mismatch (start : String) (name : Value) (routes : List Route) (positional : List Value)
    (keyword : List (String × Value)) : Except HostError HostError := do
  let shown ← name.toText
  if routes.isEmpty then
    return noRoute ("Reverse for '" ++ shown ++ "' not found. '" ++ shown ++
      "' is not a valid view function or pattern name.")
  let given ←
    if !positional.isEmpty then do
      pure ("arguments '" ++ (← (Value.tuple 0 positional).repr) ++ "'")
    else if !keyword.isEmpty then do
      let entries := keyword.map fun (k, v) => (Value.str k, v)
      pure ("keyword arguments '" ++ (← (Value.dict 0 entries).repr) ++ "'")
    else pure "no arguments"
  let patterns := routes.map fun r => Text.quoted (r.pattern start)
  return noRoute ("Reverse for '" ++ shown ++ "' with " ++ given ++ " not found. " ++
    toString routes.length ++ " pattern(s) tried: [" ++ ", ".intercalate patterns ++ "]")

/-- Names that no keyword argument may have. -/
def reservedNames : List String := ["self", "lookup_view", "_prefix"]

/-- The path of a route among others. Routes that come later are tried first. -/
def reverseAmong (start : String) (routes : List Route) (name : Value) (positional : List Value)
    (keyword : List (String × Value)) : Except HostError String := do
  match keyword.find? fun (k, _) => reservedNames.contains k with
  | some (k, _) =>
    throw (.typeError ("URLResolver._reverse_with_prefix() got multiple values for argument '" ++
      k ++ "'"))
  | none =>
    Value.checkKey name
    let named := routes.reverse.filter fun r => Value.eq (.str r.name) name
    let paths ← named.filterMapM fun r =>
      match r.assign? positional keyword with
      | none => return none
      | some values => do
        return r.path? (← values.mapM fun (k, v) => return (k, ← v.toText))
    match paths with
    | path :: _ => return Text.percentEncode ("/" ++ start ++ path)
    | [] => throw (← mismatch start name named positional keyword)

/-- The group of a namespace or of an application. The current namespace decides among the groups of
an application; otherwise the group whose namespace has the name of the application is meant, or the
last one. -/
def group? (t : RouteTable) (word : String) (current : Option String) : Option RouteGroup :=
  let spaces := (t.groups.reverse.filter (·.application = word)).map (·.space)
  let space :=
    match spaces, current with
    | [], _ => word
    | first :: _, current =>
      match current with
      | some c =>
        if c ≠ "" && spaces.contains c then c else if spaces.contains word then word else first
      | none => if spaces.contains word then word else first
  t.groups.reverse.find? (·.space = space)

/-- The first part of the namespace that a request is in. -/
def currentSpace? (current : Option Value) : Except HostError (Option String) :=
  match current with
  | none => .ok none
  | some v => do
    if !(← v.truth) then return none
    match v with
    | .text _ s => return ((Text.splitOn ':' s.toList).map String.ofList).head?
    | .bytes .. => throw (.typeError "a bytes-like object is required, not 'str'")
    | v => throw (.attributeError ("'" ++ v.typeName ++ "' object has no attribute 'split'"))

/-- **The path of a route.** A name may be led by a namespace or an application with a colon behind
it; `current` is the namespace of the request. -/
def reverse (t : RouteTable) (name : Value) (positional : List Value)
    (keyword : List (String × Value)) (current : Option Value) : Except HostError String := do
  match name with
  | .text _ s =>
    let here ← currentSpace? current
    match (Text.splitOn ':' s.toList).map String.ofList with
    | word :: next :: more =>
      match t.group? word here with
      | none => throw (noRoute (Text.quoted word ++ " is not a registered namespace"))
      | some group =>
        if more.isEmpty then
          reverseAmong group.start group.routes (.str next) positional keyword
        else
          throw (noRoute (Text.quoted next ++ " is not a registered namespace inside '" ++
            group.space ++ "'"))
    | _ => reverseAmong "" t.routes name positional keyword
  | name => reverseAmong "" t.routes name positional keyword

end RouteTable

end Galley
