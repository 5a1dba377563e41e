import Galley.Function
import Galley.Value.Arithmetic
import Galley.Value.Iterate

/-!
# Stock tags

Two small libraries of tags: `custom` with tags of all kinds, and `invalid`, where one tag takes the
scope without saying so.
-/

namespace Galley.Stock.Tags

/-- All keyword arguments, one to a line. -/
def table (b : Bindings) : Except HostError Value := do
  let rows ← b.keyword.mapM fun (k, v) => return k ++ "-" ++ (← v.toText)
  return .str ("\n".intercalate rows)

/-- The sum of all arguments, or their product if another operation than adding is asked for. -/
def combine (b : Bindings) : Except HostError Value :=
  if Value.eq (b.get "operation") (.str "add") then b.positional.foldlM Value.add (.int 0)
  else b.positional.foldlM (Value.product "*=") (.int 1)

/-- Items behind a header. -/
def listing (b : Bindings) : Except HostError Value := do
  let items ← (b.get "items").joinTexts
  return .str ((← (b.get "header").toText) ++ ": " ++ items)

/-- Counts its own calls in a variable. -/
def counter (_ : Bindings) (s : Scope) : Except HostError Value × Scope :=
  match ((s.get? (.str "count")).getD (.int 0)).add (.int 1) with
  | .ok n => (.ok (.str ""), s.set (.str "count") n)
  | .error e => (.error e, s)

/-- Sets a variable where it is set already, and remembers the first value. -/
def remember (b : Bindings) (s : Scope) : Except HostError Value × Scope :=
  match Value.checkKey (b.get "key") with
  | .error e => (.error e, s)
  | .ok () =>
    let s := s.setUpward (b.get "key") (b.get "value")
    (.ok (.str ""), (s.setDefault (.str "first") (b.get "value")).2)

/-- The path of the request. -/
def requestPath (_ : Bindings) (s : Scope) : Except HostError Value × Scope :=
  let absent (kind : String) :=
    Except.error (HostError.attributeError ("'" ++ kind ++ "' object has no attribute 'path'"))
  match s.request with
  | none => (absent "NoneType", s)
  | some request =>
    match request.path with
    | some path => (.ok path, s)
    | none => (absent "Request", s)

/-- A tag whose function computes a value. -/
def computing (name : String) (signature : Signature)
    (run : Bindings → Except HostError Value) : String × LibraryTag :=
  (name, .simple { name, signature, action := .compute run } false)

/-- A tag whose function takes the scope. -/
def acting (name : String) (params : List String)
    (run : Bindings → Scope → Except HostError Value × Scope) : String × LibraryTag :=
  (name, .simple { name, signature := { params }, action := .act run } true)

/-- Tags of all kinds. -/
def custom : Library := {
  tags := [
    computing "double" { params := ["value"] } fun b => (b.get "value").mul (.int 2),
    computing "multiply" { params := ["a", "b", "c"] } fun b => do
      ((← (b.get "a").mul (b.get "b"))).mul (b.get "c"),
    computing "table" { varkw := some "kwargs" } table,
    computing "invert" { params := ["value"], defaults := [.int 2] } fun b =>
      (Value.int 1).div (b.get "value"),
    computing "combine" {
      varargs := some "args", keywordOnly := ["operation"]
      keywordDefaults := [("operation", .str "add")] } combine,
    computing "listing" { params := ["items"], keywordOnly := ["header"] } listing,
    acting "counter" ["context"] counter,
    acting "remember" ["context", "key", "value"] remember,
    computing "greeting" { params := ["name"] } fun b => do
      return .str (← Value.substitute "Hello <" (b.get "name") ">!"),
    acting "request_path" ["context"] requestPath,
    ("results", .unsupported)] }

/-- Tags of which one takes the scope without saying so. -/
def invalid : Library := {
  tags := [
    acting "missing_context" ["request"] fun _ s => (.ok .none, s),
    acting "request_path" ["context"] requestPath] }

end Galley.Stock.Tags
