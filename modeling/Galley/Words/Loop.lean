import Galley.Words.Literal

/-!
# The header of a loop

The parts of a `for` tag are names separated by commas, the word `in`, an expression, and
optionally the word `reversed`. They are read in this order by four readers on one `LoopReader`,
each of which answers a result and the reader to go on with, also when the result is an error.

* `LoopReader.name`, `LoopReader.names`: the next name; all names.
* `LoopReader.keyword`, `LoopReader.iterable`, `LoopReader.direction`: what follows them.
-/

namespace Galley

/-- The state of reading a loop header. -/
structure LoopReader where
  cursor : Cursor
  /-- Whether the last name has been read. -/
  namesDone : Bool
  /-- The word read last, at which a missing word is reported. -/
  previous : Option Span
deriving DecidableEq

namespace LoopReader

/-- The reader at the start of the parts of a tag. -/
def ofParts (source : List Char) (parts : Span) : LoopReader :=
  ⟨.ofSpan source parts, false, none⟩

/-- Whether a character can be no part of a name. -/
def isForeign (c : Char) : Bool := c = '"' || c = '\'' || c = '|'

/-- The next `n` characters as a name. Blanks may follow the next `skip` characters; `last` says
whether it is the last name. -/
def named (r : LoopReader) (n skip : Nat) (last : Bool) :
    Except TemplateError (Option Span) × LoopReader :=
  let text := r.cursor.rest
  let span := r.cursor.ahead n
  if (text.take n).any isForeign then
    (.error (.here (.invalidLoopName (String.ofList (text.take n))) span),
      ⟨r.cursor.finish, true, some span⟩)
  else
    let next := r.cursor.advance (skip + Text.blankLength (text.drop skip))
    (.ok (some span), ⟨next, last, some span⟩)

/-- **The next name**, if there is one. A comma ends a name that another follows; a blank ends the
last one. -/
def name (r : LoopReader) : Except TemplateError (Option Span) × LoopReader :=
  if r.namesDone then (.ok none, r)
  else if r.cursor.rest.isEmpty then (.ok none, { r with namesDone := true })
  else
    let comma := Text.lengthBefore ',' r.cursor.rest
    let word := Text.wordLength r.cursor.rest
    if comma < word then r.named comma (comma + 1) false else r.named word word true

/-- The names from here on, in at most `limit` steps, and the reader behind them. -/
def namesUpTo : (limit : Nat) → LoopReader → Cursor.Words Span × LoopReader
  | 0, r => (⟨[], none⟩, r)
  | limit + 1, r =>
    match r.name with
    | (.ok none, next) => (⟨[], none⟩, next)
    | (.error e, next) => (⟨[], some e⟩, next)
    | (.ok (some span), next) =>
      let (later, last) := namesUpTo limit next
      ({ later with words := span :: later.words }, last)

/-- **All names** from here on, or the error that ends them early, and the reader behind them.
Every name but the last takes its comma with it, so there are no more names than characters. -/
def names (r : LoopReader) : Cursor.Words Span × LoopReader :=
  namesUpTo (r.cursor.rest.length + 1) r

/-- The word `in`. -/
def keyword (r : LoopReader) : Except TemplateError Unit × LoopReader :=
  let text := r.cursor.rest
  let n := Text.wordLength text
  if text.isEmpty then (.error ⟨r.previous, .missingIn⟩, r)
  else if text.take n ≠ ['i', 'n'] then (.error (.here .missingComma (r.cursor.ahead n)), r)
  else
    let next := r.cursor.advance (n + Text.blankLength (text.drop n))
    (.ok (), { r with cursor := next, previous := some (r.cursor.ahead n) })

/-- The expression whose value is looped over. -/
def iterable (r : LoopReader) : Except TemplateError Operand × LoopReader :=
  if r.cursor.rest.isEmpty then (.error ⟨r.previous, .missingLoopExpression⟩, r)
  else
    match r.cursor.operand with
    | .error e => (.error e, r)
    | .ok (operand, behind) =>
      match behind.separated with
      | .error e => (.error e, { r with cursor := behind })
      | .ok next => (.ok operand, { r with cursor := next })

/-- Whether the loop runs backwards. Nothing but the word `reversed` may follow the expression. -/
def direction (r : LoopReader) : Except TemplateError Bool :=
  let text := r.cursor.rest
  let n := Text.wordLength text
  if text.isEmpty then .ok false
  else if text.take n = "reversed".toList then
    let behind := n + Text.blankLength (text.drop n)
    if behind = text.length then .ok true
    else
      .error (.here .unexpectedLoopExpression ⟨r.cursor.start + behind, text.length - behind⟩)
  else .error (.here .unexpectedLoopExpression (r.cursor.ahead n))

end LoopReader

end Galley
