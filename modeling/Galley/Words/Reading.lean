import Galley.Words.Call
import Galley.Words.Chain
import Galley.Words.Condition
import Galley.Words.Loop

/-!
# Readers that can be asked again

Each list of words inside a tag has a reader that keeps a cursor. What it is asked for moves the cursor,
also if it ends in an error, and then it can be asked for the next thing. A word can be asked for as a
whole or piece by piece.

* `Reading`: a computation on a cursor, which is there also after an error.
* `Reading.step`: a reader of words, as a step through them.
* `Cursor.Step.answer`: what a step answers to one question after another.
* `ConditionWord.next`, `CallWord.next`, `Chain.next`: the next word, from its pieces.
* `WordCall`, `FilterCall`, `LoopCall`: what a reader can be asked for.
* `ConditionWord.perform`, `CallWord.perform`, `Chain.perform`, `LoopReader.perform`: the places that it
  answers, or its error, and what becomes of it.
-/

namespace Galley

open Text (wordLength blankLength lengthBefore)

/-- A computation on a cursor. The cursor is there also after an error. -/
abbrev Reading := ExceptT TemplateError (StateM Cursor)

namespace Reading

variable {α : Type}

/-- Reads one thing. An error leaves the cursor where it is. -/
def ofRead (read : Cursor → Except TemplateError (α × Cursor)) : Reading α := fun c =>
  match read c with
  | .ok (a, behind) => (.ok a, behind)
  | .error e => (.error e, c)

/-- A computation that leaves nothing to read after the errors that are `final`. -/
def finishing (final : TemplateError → Bool) (x : Reading α) : Reading α := fun c =>
  match x.run.run c with
  | (.ok a, behind) => (.ok a, behind)
  | (.error e, behind) => (.error e, if final e then behind.finish else behind)

/-- Passes over blanks. -/
def blanks : Reading Unit := modify fun c => c.advance (blankLength c.rest)

/-- The blanks that have to follow a word. -/
def separation : Reading Unit := .ofRead fun c => c.separated.map fun behind => ((), behind)

/-- A step through the words: one is read as long as something is left to read. -/
def step (x : Reading α) : Cursor.Step α := fun c =>
  if c.rest.isEmpty then none else some (x.run.run c)

/-- The places of what is read, or the error, and the cursor that is left. -/
def places (x : Reading α) (spans : α → List Span) (c : Cursor) : Cursor.Words Span × Cursor :=
  match x.run.run c with
  | (.ok a, behind) => (⟨spans a, none⟩, behind)
  | (.error e, behind) => (⟨[], some e⟩, behind)

/-- The places of the next word, if there is one. -/
def nextPlaces (x : Reading α) (spans : α → List Span) (c : Cursor) : Cursor.Words Span × Cursor :=
  if c.rest.isEmpty then (⟨[], none⟩, c) else x.places spans c

end Reading

/-- The cursor behind one step: where the words have ended it stays. -/
def Cursor.Step.behind {α : Type} (step : Cursor.Step α) (c : Cursor) : Cursor :=
  ((step c).map (·.2)).getD c

/-- The answer to a question, where one question is asked after another and they are counted from zero:
nothing if the words have ended, else a word or what is wrong with it. After an error the next question
is asked where this leaves the cursor. -/
def Cursor.Step.answer {α : Type} (step : Cursor.Step α) :
    (question : Nat) → Cursor → Option (Except TemplateError α)
  | 0, c => (step c).map (·.1)
  | question + 1, c => answer step question (step.behind c)

/-- What a reader of words can be asked for: the next word, a word without any look at what it is, and
the blanks behind a word. -/
inductive WordCall where
  | next
  | word
  | separation

/-! ## Conditions -/

namespace ConditionWord

/-- An operand and the blanks behind it. Text directly behind it leaves nothing to read. -/
def word : Reading ConditionWord :=
  .finishing (fun e => e.cause = .invalidRemainder) do
    let value ← .ofRead Cursor.operand
    Reading.separation
    return .operand value

/-- The next word: a comparison sign, or else an operand. -/
def next : Reading ConditionWord := fun c =>
  let n := wordLength c.rest
  match comparison? (c.rest.take n) with
  | some operator =>
    (.ok (.comparison operator (c.ahead n)), c.advance (n + blankLength (c.rest.drop n)))
  | none => word.run.run c

/-- The places of a word. -/
def spans : ConditionWord → List Span
  | comparison _ span => [span]
  | operand o => [o.span]

/-- What comes of asking the reader of a condition. -/
def perform : WordCall → Cursor → Cursor.Words Span × Cursor
  | .next => next.nextPlaces spans
  | .word => word.places spans
  | .separation => Reading.separation.places fun _ => []

end ConditionWord

/-! ## Calls -/

namespace CallWord

/-- An argument with the name in front of it. -/
def word : Reading CallWord := do
  let name ← .ofRead readKeyword
  let operand ← .ofRead Cursor.operand
  return ⟨operand, name⟩

/-- The next argument and the blanks behind it. An error leaves nothing to read. -/
def next : Reading CallWord :=
  .finishing (fun _ => true) do
    let w ← word
    Reading.separation
    return w

/-- The places of an argument: its value and its name. -/
def spans (w : CallWord) : List Span := w.operand.span :: w.keyword.toList

/-- What comes of asking the reader of a call. -/
def perform : WordCall → Cursor → Cursor.Words Span × Cursor
  | .next => next.nextPlaces spans
  | .word => word.places spans
  | .separation => Reading.separation.places fun _ => []

end CallWord

/-! ## Filters -/

/-- What a reader of filters can be asked for: the next filter, a filter without what separates it from
the next one, the argument behind its name, and what separates it from the next one. -/
inductive FilterCall where
  | next
  | filter
  | argument
  | separation

namespace Chain

/-- The name of a filter. -/
def readFilterName (c : Cursor) : Except TemplateError (Span × Cursor) :=
  let n := (c.rest.takeWhile Text.isNameChar).length
  if n = 0 || !c.rest.head?.any Text.isNameStart then
    .error (.here .invalidFilterName (c.ahead (lengthBefore '|' c.rest)))
  else .ok (c.take n)

/-- The argument of a filter. An error leaves the cursor behind the colon. -/
def argumentBehind : Reading (Option Operand) := fun c =>
  match argument c with
  | .ok (value, behind) => (.ok value, behind)
  | .error e => (.error e, c.advance (lengthBefore ':' c.rest + 1))

/-- A filter with its argument. -/
def filter : Reading FilterWord := do
  Reading.blanks
  let name ← .ofRead readFilterName
  let value ← argumentBehind
  return ⟨name, value⟩

/-- What separates a filter from the next one. -/
def separation : Reading Unit := .ofRead fun c => (separator c).map fun behind => ((), behind)

/-- The next filter and what separates it from the one behind it. An error leaves nothing to read. -/
def next : Reading FilterWord :=
  .finishing (fun _ => true) do
    let w ← filter
    separation
    return w

/-- The places of an argument that may be missing. -/
def argumentSpans (value : Option Operand) : List Span := (value.map Operand.span).toList

/-- The places of a filter: its name and its argument. -/
def spans (w : FilterWord) : List Span := w.name :: argumentSpans w.argument

/-- What comes of asking the reader of filters. -/
def perform : FilterCall → Cursor → Cursor.Words Span × Cursor
  | .next => next.nextPlaces spans
  | .filter => filter.places spans
  | .argument => argumentBehind.places argumentSpans
  | .separation => separation.places fun _ => []

end Chain

/-! ## Loops -/

/-- What a reader of a loop header can be asked for: a name, all names, the word `in`, the expression,
the blanks behind it, and the direction. -/
inductive LoopCall where
  | name
  | names
  | keyword
  | iterable
  | separation
  | direction

namespace LoopReader

/-- The blanks that have to follow the expression. -/
def separation (r : LoopReader) : Except TemplateError Unit × LoopReader :=
  match r.cursor.separated with
  | .error e => (.error e, r)
  | .ok next => (.ok (), { r with cursor := next })

/-- The places of an outcome, or its error. -/
def places {α : Type} (spans : α → List Span) : Except TemplateError α → Cursor.Words Span
  | .ok a => ⟨spans a, none⟩
  | .error e => ⟨[], some e⟩

/-- What comes of asking the reader of a loop header. -/
def perform : LoopCall → LoopReader → Cursor.Words Span × LoopReader
  | .name, r => (places Option.toList r.name.1, r.name.2)
  | .names, r => r.names
  | .keyword, r => (places (fun _ => []) r.keyword.1, r.keyword.2)
  | .iterable, r => (places (fun o => [o.span]) r.iterable.1, r.iterable.2)
  | .separation, r => (places (fun _ => []) r.separation.1, r.separation.2)
  | .direction, r => (places (fun _ => []) r.direction, r)

end LoopReader

end Galley
