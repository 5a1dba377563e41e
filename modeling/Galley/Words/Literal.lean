import Galley.Error
import Galley.Text.Blank
import Galley.Text.Digit
import Galley.Text.Identifier
import Galley.Text.Search

/-!
# Reading literals and paths

The inside of a tag is read from a `Cursor`: what is left to read, and the offset at which it
starts. Every reader takes a cursor and answers the span of what it read and the cursor behind it.

* `Cursor.quotedText`, `Cursor.translated`, `Cursor.numeral`: the three kinds of literal.
* `Cursor.expression`: a variable with its filters, up to the first character that fits neither.
* `Cursor.operand`: whichever of these stands next.
* `Cursor.path`: a dotted name.
-/

namespace Galley

/-- What is left to read, and where it starts. -/
structure Cursor where
  start : Nat
  rest : List Char
deriving DecidableEq

/-- What kind of value a word stands for. -/
inductive OperandKind where
  | numeric
  | text
  | translated
  | path
deriving DecidableEq

/-- A word that stands for a value. -/
structure Operand where
  kind : OperandKind
  span : Span
deriving DecidableEq

namespace OperandKind

/-- The word for a kind. -/
def word : OperandKind → String
  | numeric => "numeric"
  | text => "text"
  | translated => "translated_text"
  | path => "variable"

/-- The number of characters before the value of a word of this kind. -/
def opening : OperandKind → Nat
  | text => 1
  | translated => 3
  | _ => 0

/-- The number of characters behind the value of a word of this kind. -/
def closing : OperandKind → Nat
  | text => 1
  | translated => 2
  | _ => 0

/-- The part of a word of this kind that holds its value: quotes and the `_()` around them do not
belong to it. -/
def inner (kind : OperandKind) (span : Span) : Span :=
  ⟨span.start + kind.opening, span.length - (kind.opening + kind.closing)⟩

end OperandKind

/-- The part of an operand that holds its value. -/
def Operand.inner (o : Operand) : Span := o.kind.inner o.span

namespace Cursor

/-- The cursor at the start of a span of the source, with nothing to read behind the span. -/
def ofSpan (source : List Char) (span : Span) : Cursor := ⟨span.start, span.slice source⟩

/-- The cursor after `n` more characters. -/
def advance (c : Cursor) (n : Nat) : Cursor := ⟨c.start + n, c.rest.drop n⟩

/-- The cursor with nothing left to read. -/
def finish (c : Cursor) : Cursor := ⟨c.start, []⟩

/-- The span of the next `n` characters. -/
def ahead (c : Cursor) (n : Nat) : Span := ⟨c.start, n⟩

/-- The next `n` characters as a span, and the cursor behind them. -/
def take (c : Cursor) (n : Nat) : Span × Cursor := (c.ahead n, c.advance n)

/-- The number of characters up to and with the quote that closes a literal. A backslash takes the
next character with it. -/
def closingQuote? (quote : Char) : List Char → Option Nat
  | [] => none
  | '\\' :: [] => none
  | '\\' :: _ :: rest => (closingQuote? quote rest).map (· + 2)
  | c :: rest => if c = quote then some 1 else (closingQuote? quote rest).map (· + 1)

/-- A string literal. Its first character opens it, and `quote` closes it. -/
def quotedText (c : Cursor) (quote : Char) : Except TemplateError (Span × Cursor) :=
  match closingQuote? quote (c.rest.drop 1) with
  | some n => .ok (c.take (n + 1))
  | none => .error (.here .incompleteString (c.ahead c.rest.length))

/-- Whether a character opens a string literal. -/
def isQuote (c : Char) : Bool := c = '"' || c = '\''

/-- A literal `_("…")` to be translated; its first two characters are taken for granted. -/
def translated (c : Cursor) : Except TemplateError (Span × Cursor) := do
  let inner := c.advance 2
  match inner.rest with
  | [] => throw (.here .missingTranslation (c.ahead 2))
  | quote :: _ =>
    if !isQuote quote then throw (.here .missingTranslation (c.ahead (inner.rest.length + 2)))
    else
      let (span, behind) ← inner.quotedText quote
      match behind.rest with
      | ')' :: _ => return c.take (span.length + 3)
      | _ => throw (.here .incompleteTranslation (c.ahead (span.length + 2)))

/-- The characters that numbers are written with. -/
def isNumeric (c : Char) : Bool := c.isDigit || c = '-' || c = '.' || c = 'e'

/-- The length of a number. A dash can only be its first character. -/
def numeralLength : List Char → Nat
  | [] => 0
  | c :: rest =>
    if isNumeric c then (rest.takeWhile fun d => isNumeric d && d ≠ '-').length + 1 else 0

/-- A number. -/
def numeral (c : Cursor) : Span × Cursor := c.take (numeralLength c.rest)

/-- The length of a variable with its filters; inside quotes, which `quote` tells, everything
belongs to it. -/
def expressionLength (quote : Option Char) : List Char → Nat
  | [] => 0
  | c :: rest =>
    match quote with
    | some q => expressionLength (if c = q then none else some q) rest + 1
    | none =>
      if isQuote c then expressionLength (some c) rest + 1
      else if Text.isNameChar c || c = '.' || c = '|' || c = ':' then
        expressionLength none rest + 1
      else 0

/-- A variable with its filters. -/
def expression (c : Cursor) : Span × Cursor := c.take (expressionLength none c.rest)

/-- The length of a dotted name. -/
def pathLength (text : List Char) : Nat :=
  (text.takeWhile fun c => Text.isNameChar c || c = '.').length

/-- The first segment of a path that is empty or begins with an underscore, given the offset of the
first segment. -/
def badSegment? (start : Nat) : List (List Char) → Option Span
  | [] => none
  | segment :: others =>
    match segment with
    | [] => some ⟨start, 0⟩
    | '_' :: _ => some ⟨start, segment.length⟩
    | _ => badSegment? (start + segment.length + 1) others

/-- Refuses a path with a bad segment. -/
def checkPath (path : List Char) (start : Nat) : Except TemplateError Unit :=
  match badSegment? start (Text.splitOn '.' path) with
  | some span => .error (.here .invalidName span)
  | none => .ok ()

/-- A dotted name. -/
def path (c : Cursor) : Except TemplateError (Span × Cursor) := do
  let n := pathLength c.rest
  checkPath (c.rest.take n) c.start
  return c.take n

/-- Whether a number starts with this character. -/
def startsNumber (c : Char) : Bool := Text.isDigit c || c = '-'

/-- The value that stands next: a literal, or a variable with its filters. Something has to be left
to read. -/
def operand (c : Cursor) : Except TemplateError (Operand × Cursor) :=
  match c.rest with
  | '_' :: '(' :: _ => c.translated.map fun (span, behind) => (⟨.translated, span⟩, behind)
  | first :: _ =>
    if isQuote first then (c.quotedText first).map fun (span, behind) => (⟨.text, span⟩, behind)
    else if startsNumber first then .ok (⟨.numeric, c.numeral.1⟩, c.numeral.2)
    else .ok (⟨.path, c.expression.1⟩, c.expression.2)
  | [] => .error (.ofHost .endOfText)

/-- The cursor behind the blanks that have to follow a word. -/
def separated (c : Cursor) : Except TemplateError Cursor :=
  match Text.wordLength c.rest with
  | 0 => .ok (c.advance (Text.blankLength c.rest))
  | n => .error (.here .invalidRemainder (c.ahead n))

/-- One step of reading a list of words: nothing if the list has ended, else the next word or what
is wrong with it, and the cursor from which reading goes on in either case. -/
abbrev Step (α : Type) := Cursor → Option (Except TemplateError α × Cursor)

/-- The step that reads one word where something is left to read. An error ends the list. -/
def Step.ofRead {α : Type} (read : Cursor → Except TemplateError (α × Cursor)) : Step α := fun c =>
  if c.rest.isEmpty then none
  else
    match read c with
    | .ok (word, next) => some (.ok word, next)
    | .error e => some (.error e, c.finish)

/-- What was read of a list of words: those before the first error, and that error. -/
structure Words (α : Type) where
  words : List α
  error : Option TemplateError

/-- The words from a cursor on, in at most `limit` steps. -/
def readUpTo {α : Type} (step : Step α) : (limit : Nat) → Cursor → Words α
  | 0, _ => ⟨[], none⟩
  | limit + 1, c =>
    match step c with
    | none => ⟨[], none⟩
    | some (.error e, _) => ⟨[], some e⟩
    | some (.ok word, behind) =>
      let later := readUpTo step limit behind
      { later with words := word :: later.words }

/-- The words from a cursor on. Every word takes a character, so there are no more steps than
characters. -/
def readAll {α : Type} (step : Step α) (c : Cursor) : Words α :=
  readUpTo step c.rest.length c

/-- All words, or the error among them. -/
def Words.toExcept {α : Type} (w : Words α) : Except TemplateError (List α) :=
  match w.error with
  | some e => .error e
  | none => .ok w.words

/-- **One by one.** Makes something of each word in turn. An error of the reader comes after those
of the words before it. -/
def Words.mapM {α β : Type} (w : Words α) (f : α → Except TemplateError β) :
    Except TemplateError (List β) := do
  let made ← w.words.mapM f
  match w.error with
  | some e => throw e
  | none => return made

end Cursor

end Galley
