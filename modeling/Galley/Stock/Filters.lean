import Galley.Function
import Galley.Value.Arithmetic
import Galley.Value.Iterate

/-!
# Stock filters

Two small libraries of filters: `custom` with filters of every arity, and `more`.
-/

namespace Galley.Stock.Filters

/-- The name of a type where an argument of another type is wanted. -/
def argumentType (v : Value) : String :=
  match v with
  | .none => "None"
  | v => v.typeName

/-- A text without all occurrences of a part; `skip` counts the characters that are passed over. -/
def removeAll (part : List Char) (skip : Nat) : List Char → List Char
  | [] => []
  | c :: rest =>
    match skip with
    | n + 1 => removeAll part n rest
    | 0 =>
      if !part.isEmpty && part.isPrefixOf (c :: rest) then removeAll part (part.length - 1) rest
      else c :: removeAll part 0 rest

/-- Removes all occurrences of a text. -/
def cut (b : Bindings) : Except HostError Value :=
  match b.get "value", b.get "arg" with
  | .text _ s, .text _ part => .ok (.str (String.ofList (removeAll part.toList 0 s.toList)))
  | .text .., arg =>
    .error (.typeError ("replace() argument 1 must be str, not " ++ argumentType arg))
  | .bytes .., .bytes .. => .error (.typeError "a bytes-like object is required, not 'str'")
  | .bytes .., arg =>
    .error (.typeError ("a bytes-like object is required, not '" ++ arg.typeName ++ "'"))
  | v, _ =>
    .error (.attributeError ("'" ++ v.typeName ++ "' object has no attribute 'replace'"))

/-- Puts a value between tags for bold text. -/
def bold (b : Bindings) : Except HostError Value := do
  return .str (← Value.substitute "<b>" (b.get "value") "</b>")

/-- Tells whether autoescaping is on. -/
def escaped (b : Bindings) : Except HostError Value := do
  return .str (if ← (b.get "autoescape").truth then "on" else "off")

/-- Filters of every arity. -/
def custom : Library := {
  filters := [
    ("cut", { name := "cut", signature := { params := ["value", "arg"] }, action := .compute cut }),
    ("double", {
      name := "double"
      signature := { params := ["value"] }
      action := .compute fun b => (b.get "value").mul (.int 2) }),
    ("multiply", {
      name := "multiply"
      signature := { params := ["value", "by"], defaults := [.int 3] }
      action := .compute fun b => (b.get "value").mul (b.get "by") }),
    ("divide_by_zero", {
      name := "divide_by_zero"
      signature := { params := ["value", "zero"], defaults := [.int 0] }
      action := .compute fun b => (b.get "value").div (b.get "zero") }),
    ("bold", {
      name := "bold"
      signature := { params := ["value"] }
      action := .compute bold
      isSafe := true }),
    ("escaped", {
      name := "escaped"
      signature := { params := ["value", "autoescape"], defaults := [.bool true] }
      action := .compute escaped
      needsAutoescape := true })] }

/-- One more filter. -/
def more : Library := {
  filters := [
    ("square", {
      name := "square"
      signature := { params := ["value"] }
      action := .compute fun b => (b.get "value").mul (b.get "value") })] }

end Galley.Stock.Filters
