import Galley.Expression
import Galley.Rendering

/-!
# Resolving atoms

A literal stands for its value, and a path is looked up in the scope name by name. What does not
exist is missing. A strict lookup reports a missing member; a missing variable is never an error.
Looking a name up may take an item from a list.

* `translate`: the text that a message is translated to.
* `Value.follow`: the names behind a value.
* `Atom.resolve`: the value of an atom.
-/

namespace Galley

/-- Whether a missing member is an error. -/
inductive Strictness where
  | lenient
  | strict
deriving DecidableEq

/-- A text with one kind of line end. -/
def plainLineEnds : List Char → List Char
  | [] => []
  | ['\r'] => ['\n']
  | '\r' :: c :: rest =>
    '\n' :: if c = '\n' then plainLineEnds rest else plainLineEnds (c :: rest)
  | c :: rest => c :: plainLineEnds rest

/-- **The translation of a message** in a catalogue that changes no message: line ends become one,
and a percent sign is doubled, as in every message. -/
def translate (message : String) : String :=
  String.ofList (plainLineEnds (message.toList.flatMap fun c => if c = '%' then [c, c] else [c]))

/-- The error of a name that was not found behind a value. `start` and `offset` tell where the path
begins and how much of it stands before the dot. -/
def lookupError (name : String) (current : Value) (start offset : Nat) : Fault :=
  match current.repr with
  | .ok shown =>
    .template (.here (.failedLookup name shown (some ⟨start, offset⟩))
      ⟨start + offset + 1, name.length⟩)
  | .error e => .host e

/-- A result in which an error that asks for silence counts as missing. -/
def hushed (result : Except HostError (Option Value)) : Rendering (Option Value) :=
  match result with
  | .ok v => pure v
  | .error e => if e.silent then pure none else throw (.host e)

/-- A value with one name behind it. What is found is called if it can be called, and what the call
makes gets its numbers. -/
def Value.dot (strictness : Strictness) (current : Value) (name : String) (start offset : Nat) :
    Rendering (Option Value) := do
  match current.member name with
  | .found v =>
    if let some (number, left) := v.takes? then modify (·.take number left)
    (← hushed v.called).mapM Rendering.numbered
  | .failed e => hushed (.error e)
  | .absent =>
    match strictness with
    | .strict => throw (lookupError name current start offset)
    | .lenient => return .none

/-- **The value behind dotted names.** -/
def Value.follow (strictness : Strictness) (current : Value) (start offset : Nat) :
    List String → Rendering (Option Value)
  | [] => return some current
  | name :: rest => do
    match ← current.dot strictness name start offset with
    | some next => next.follow strictness start (offset + name.length + 1) rest
    | .none => return .none

/-- The value of a running loop, or of one of its counters. -/
def loopValue (scope : Scope) (parents : Nat) (requested : Option LoopCounter) :
    Except HostError (Option Value) := do
  match ← scope.loopAt parents, requested with
  | none, some _ => return none
  | none, none => return if scope.loops.length < parents then none else some (.dict 0 [])
  | some _, none => return some (scope.loopDict parents)
  | some loop, some c => return some (loop.read c)

/-- The length of the part of a path that names a running loop. -/
def loopPathLength (parents : Nat) (requested : Option LoopCounter) : Nat :=
  "forloop".length + ".parentloop".length * parents +
    (match requested with
      | some c => c.word.length + 1
      | none => 0)

/-- **The value of an atom.** -/
def Atom.resolve (a : Atom) (strictness : Strictness) : Rendering (Option Value) := do
  match a with
  | .int _ n => return some (.int n)
  | .float _ x => return some (.float x)
  | .text _ s => return some (.safe s)
  | .translated _ s => return some (.safe (translate s))
  | .path span root names =>
    match (← get).get? (.str root) with
    | none => return none
    | some v =>
      match ← Rendering.host (← Rendering.current v).called with
      | none => return none
      | some v => do
        (← Rendering.numbered v).follow strictness span.start root.length names
  | .loop span parents c names =>
    match ← Rendering.host (loopValue (← get) parents c) with
    | none => return none
    | some v => v.follow strictness span.start (loopPathLength parents c) names

/-- The value of a filter's argument, which has to exist. -/
def Atom.resolvePresent (a : Atom) : Rendering Value := do
  match ← a.resolve .strict with
  | some v => return v
  | none =>
    let shown ← Rendering.host (← get).refreshed.toValue.repr
    Rendering.fail (.missingOperand a.rootName shown) a.span

end Galley
