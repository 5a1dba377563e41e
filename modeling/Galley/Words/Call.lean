import Galley.Words.Literal

/-!
# Arguments of a call

The parts of a `url` tag, and of a tag from a library, are arguments `value` or `name=value`
separated by blanks.

* `CallWord.step`: the next argument.
-/

namespace Galley

/-- An argument as it is written: its value, and the name in front of it if it has one. -/
structure CallWord where
  operand : Operand
  keyword : Option Span
deriving DecidableEq

namespace CallWord

/-- The length of the name if the text begins with a name and an equals sign. -/
def keywordLength? (text : List Char) : Option Nat :=
  let n := (text.takeWhile Text.isNameChar).length
  if 0 < n && (text.drop n).head? = some '=' then some n else none

/-- The name in front of a value, and the cursor at the value. -/
def readKeyword (c : Cursor) : Except TemplateError (Option Span × Cursor) :=
  match keywordLength? c.rest with
  | none => .ok (none, c)
  | some n =>
    let behind := c.advance (n + 1)
    if behind.rest.head?.all Text.isBlank then
      .error (.here .incompleteKeyword (c.ahead (n + 1)))
    else .ok (some (c.ahead n), behind)

/-- The next argument and the cursor at the one after it. -/
def read (c : Cursor) : Except TemplateError (CallWord × Cursor) := do
  let (name, c) ← readKeyword c
  let (operand, behind) ← c.operand
  let next ← behind.separated
  return (⟨operand, name⟩, next)

/-- One step through the arguments. An error ends them. -/
def step : Cursor.Step CallWord := .ofRead read

/-- All arguments in the parts of a tag. -/
def all (source : List Char) (parts : Span) : Except TemplateError (List CallWord) :=
  (Cursor.readAll step (.ofSpan source parts)).toExcept

end CallWord

end Galley
