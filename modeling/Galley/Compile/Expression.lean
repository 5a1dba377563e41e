import Galley.Expression
import Galley.Number.Decimal
import Galley.Words.Chain

/-!
# From words to expressions

The words of `{{ }}` and of tag arguments become expressions. What a name means depends on the
filters that have been loaded, and on whether a loop is running.

* `unescape`, `literalText`: the text of a string literal.
* `Reader.number`, `Reader.path`, `Reader.atom`: the atom that an operand is.
* `Reader.chain`, `Reader.expression`: an atom with its filters.
-/

namespace Galley

/-- Drops the backslash in front of every `c`. -/
def dropEscapes (c : Char) : List Char → List Char
  | [] => []
  | [d] => [d]
  | d :: next :: rest =>
    if d = '\\' && next = c then c :: dropEscapes c rest else d :: dropEscapes c (next :: rest)

/-- **The text of a literal** between quotes: an escaped quote is a quote, and of two backslashes
one stays. -/
def unescape (literal : List Char) : String :=
  match literal with
  | [] => ""
  | quote :: rest => String.ofList (dropEscapes '\\' (dropEscapes quote rest.dropLast))

/-- Whether a text stands between quotes, the same at either end. -/
def isLiteral (text : List Char) : Bool := text.head?.any Cursor.isQuote && text.getLast? = text.head?

/-- The text of a literal. Nothing but a literal has one. -/
def literalText (text : List Char) : Except TemplateError String :=
  if isLiteral text then .ok (unescape text)
  else .error (.ofHost (.valueError ("Not a string literal: " ++ Text.quoted (String.ofList text))))

/-- What is known where an expression is read. -/
structure Reader where
  source : List Char
  /-- The filters that have been loaded, the latest first. -/
  filters : List (String × Function)
  /-- The number of loops around. -/
  loopDepth : Nat

namespace Reader

/-- The text at a place. -/
def textAt (r : Reader) (span : Span) : String := String.ofList (span.slice r.source)

/-- A number: an integer if it can be read as one. -/
def number (r : Reader) (span : Span) : Except TemplateError Atom :=
  let digits := span.slice r.source
  match Integer.read? digits with
  | some n => .ok (.int span n)
  | none =>
    match DecimalLiteral.read? digits with
    | some d => .ok (.float span d.toFloat)
    | none => .error (.here .invalidNumber span)

/-- The number of leading `parentloop` names, and the other names. -/
def parents : List String → Nat × List String
  | name :: rest =>
    if name = "parentloop" then
      let (n, names) := parents rest
      (n + 1, names)
    else (0, name :: rest)
  | [] => (0, [])

/-- The loop counter that names begin with, and the other names. -/
def counter : List String → Option LoopCounter × List String
  | name :: rest =>
    match LoopCounter.ofWord? name with
    | some c => (some c, rest)
    | none => (none, name :: rest)
  | [] => (none, [])

/-- **A path.** Inside a loop `forloop` is the loop, and not a variable of that name. -/
def path (r : Reader) (span : Span) : Atom :=
  match (Text.splitOn '.' (span.slice r.source)).map String.ofList with
  | [] => .path span "" []
  | root :: names =>
    if 0 < r.loopDepth && root = "forloop" then
      let (outer, names) := parents names
      let (counter, names) := counter names
      .loop span outer counter names
    else .path span root names

/-- The atom that an operand is. -/
def atom (r : Reader) (operand : Operand) : Except TemplateError Atom :=
  match operand.kind with
  | .numeric => r.number operand.span
  | .text => do return .text operand.inner (← literalText (operand.span.slice r.source))
  | .translated => do
    let quoted : Span := ⟨operand.span.start + 2, operand.span.length - 3⟩
    return .translated operand.inner (← literalText (quoted.slice r.source))
  | .path => .ok (r.path operand.span)

/-- The filter with a name: the one loaded last, else the one that is always there. -/
def filter (r : Reader) (span : Span) : Except TemplateError Filter :=
  let name := r.textAt span
  match r.filters.lookup name with
  | some function => .ok (.loaded name function)
  | none =>
    match BuiltinFilter.ofWord? name with
    | some f => .ok (.builtin f)
    | none => .error (.here (.unknownFilter name) span)

/-- Refuses a filter whose argument is missing or is one too many. -/
def checkArity (filter : Filter) (name : Span) (argument : Option Atom) :
    Except TemplateError Unit :=
  match filter.arity, argument with
  | .required, none => .error (.here .missingArgument name)
  | .forbidden, some a => .error (.here .unexpectedArgument a.span)
  | _, _ => .ok ()

/-- A filter with its argument. -/
def filterUse (r : Reader) (word : FilterWord) : Except TemplateError FilterUse := do
  let argument ← match word.argument with
    | none => pure none
    | some operand => some <$> r.atom operand
  let filter ← r.filter word.name
  checkArity filter word.name argument
  return ⟨word.name, filter, argument⟩

/-- **An atom with its filters,** read from a content that starts at an offset. An empty one is
reported at `whole`. -/
def chain (r : Reader) (content : List Char) (whole : Span) (start : Nat) :
    Except TemplateError Expression := do
  match ← Chain.read? content start with
  | none => throw (.here .emptyVariable whole)
  | some (head, filters) =>
    let head ← r.atom head
    let uses ← (Cursor.readAll Chain.filterStep filters).mapM r.filterUse
    return ⟨head, uses⟩

/-- The expression that an operand of a tag is. A path carries its filters with it. -/
def expression (r : Reader) (operand : Operand) : Except TemplateError Expression :=
  match operand.kind with
  | .path => r.chain (operand.span.slice r.source) operand.span operand.span.start
  | _ => do return ⟨← r.atom operand, []⟩

end Reader

end Galley
