import Galley.Words.Literal

/-!
# Filter chains

The content of `{{ }}` is a value followed by filters, each behind a bar and with at most one
argument behind a colon.

* `Chain.head`: the value at the start.
* `Chain.filterStep`: the next filter.
* `Chain.read?`: the value and the cursor at the first filter.
-/

namespace Galley

open Text (trim trimStart trimEnd lengthBefore)

/-- A filter as it is written: its name and its argument. -/
structure FilterWord where
  name : Span
  argument : Option Operand
deriving DecidableEq

namespace Chain

/-- The value at the start of a chain. Something has to be left to read. -/
def head (c : Cursor) : Except TemplateError (Operand × Cursor) :=
  match c.rest with
  | '_' :: '(' :: _ => c.translated.map fun (span, behind) => (⟨.translated, span⟩, behind)
  | first :: _ =>
    if Cursor.isQuote first then
      (c.quotedText first).map fun (span, behind) => (⟨.text, span⟩, behind)
    else if Cursor.startsNumber first then .ok (⟨.numeric, c.numeral.1⟩, c.numeral.2)
    else name
  | [] => .error (.ofHost .endOfText)
where
  /-- A dotted name. A dot at its very end is reported together with what follows it. -/
  name : Except TemplateError (Operand × Cursor) :=
    let n := Cursor.pathLength c.rest
    let path := c.rest.take n
    if n = 0 then .error (.here .invalidName (c.ahead (trim c.rest).length))
    else if path.getLast? = some '.' then do
      Cursor.checkPath path.dropLast c.start
      let behind := c.advance n
      let length := min (Text.wordLength behind.rest) (lengthBefore '|' behind.rest)
      throw (.here .invalidName (behind.ahead length))
    else do
      Cursor.checkPath path c.start
      return (⟨.path, c.ahead n⟩, c.advance n)

/-- The cursor at the first filter behind the value; nothing is left to read if there is none. -/
def filters (c : Cursor) : Cursor :=
  let n := lengthBefore '|' c.rest
  if n = c.rest.length then (c.advance n).finish
  else
    let behind := c.advance (n + 1)
    let blanks := Text.blankLength behind.rest
    ⟨behind.start + blanks, trim behind.rest⟩

/-- Refuses text between the value and the first bar. Directly behind a name it belongs to it. -/
def checkGap (head : Operand) (c : Cursor) : Except TemplateError Unit :=
  let gap := c.rest.take (lengthBefore '|' c.rest)
  if Text.allBlank gap then .ok ()
  else if head.kind = .path && gap.head?.any (!Text.isBlank ·) then
    .error (.here .invalidName ⟨head.span.start, head.span.length + (trimEnd gap).length⟩)
  else
    .error (.here .invalidRemainder ⟨c.start + Text.blankLength gap, (trim gap).length⟩)

/-- **A chain:** its value and the cursor at its first filter, or nothing if all is blank. `start`
is the offset of the content. -/
def read? (content : List Char) (start : Nat) :
    Except TemplateError (Option (Operand × Cursor)) := do
  let bare := trimStart content
  if bare.isEmpty then return none
  else
    let c : Cursor := ⟨start + (content.length - bare.length), bare⟩
    let (value, behind) ← head c
    checkGap value behind
    return some (value, filters behind)

/-- The argument of a filter, if a colon stands before the next bar. -/
def argument (c : Cursor) : Except TemplateError (Option Operand × Cursor) :=
  let colon := lengthBefore ':' c.rest
  let bar := lengthBefore '|' c.rest
  if colon = c.rest.length || bar < colon then .ok (none, c)
  else
    let c := c.advance (colon + 1)
    match c.rest with
    | [] => .error (.here .invalidRemainder ⟨c.start - 1, 1⟩)
    | '_' :: '(' :: _ => c.translated.map fun (span, behind) => (some ⟨.translated, span⟩, behind)
    | '_' :: _ => .error (.here .leadingUnderscore (c.ahead (Text.wordLength c.rest)))
    | first :: _ =>
      if Cursor.isQuote first then
        (c.quotedText first).map fun (span, behind) => (some ⟨.text, span⟩, behind)
      else if Cursor.startsNumber first then
        .ok (some ⟨.numeric, c.numeral.1⟩, c.numeral.2)
      else c.path.map fun (span, behind) => (some ⟨.path, span⟩, behind)

/-- The cursor behind the separator that ends a filter. Only blanks may stand before it. -/
def separator (c : Cursor) : Except TemplateError Cursor :=
  let n := min (lengthBefore '|' c.rest) (lengthBefore ':' c.rest)
  let gap := c.rest.take n
  if Text.allBlank gap then .ok (c.advance (min (n + 1) c.rest.length))
  else .error (.here .invalidRemainder ⟨c.start + Text.blankLength gap, (trim gap).length⟩)

/-- The next filter with its argument. -/
def filterWord (c : Cursor) : Except TemplateError (FilterWord × Cursor) := do
  let c := c.advance (Text.blankLength c.rest)
  let n := (c.rest.takeWhile Text.isNameChar).length
  if n = 0 || !c.rest.head?.any Text.isNameStart then
    throw (.here .invalidFilterName (c.ahead (lengthBefore '|' c.rest)))
  else
    let (value, behind) ← argument (c.advance n)
    let behind ← separator behind
    return (⟨c.ahead n, value⟩, behind)

/-- One step through the filters of a chain. An error ends the chain. -/
def filterStep : Cursor.Step FilterWord := .ofRead filterWord

end Chain

end Galley
