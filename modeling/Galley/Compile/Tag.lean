import Galley.Compile.Expression
import Galley.Node
import Galley.Words.Call
import Galley.Words.Condition
import Galley.Words.Loop

/-!
# What tags say about themselves

The parts of a tag become what its node holds: a condition, a loop header, a route or a call.

* `Reader.condition`, `Reader.loopHeader`, `Reader.routeCall`: the tags that are always there.
* `Reader.tagCall`: a tag of a library, whose arguments have to fit the signature of its function.
-/

namespace Galley.Reader

/-- A word of a condition, with the expression that it is if it is one. -/
def conditionToken (r : Reader) :
    ConditionWord → Except TemplateError (ConditionToken Expression)
  | .comparison operator span => return ⟨span, .operator operator.symbol⟩
  | .operand operand => return ⟨operand.span, .operand (← r.expression operand)⟩

/-- The condition of an `if` or `elif` tag. -/
def condition (r : Reader) (tag parts : Span) : Except TemplateError (Condition Expression) := do
  let tokens ← (ConditionWord.all r.source parts).mapM r.conditionToken
  Condition.parse r.source tag (Condition.combine r.source tokens)

/-- Refuses the word `in` where a loop name is due; `previous` is the name before. -/
def checkLoopNames (r : Reader) (previous : Option Span) : List Span → Except TemplateError Unit
  | [] => .ok ()
  | name :: rest =>
    if name.slice r.source = ['i', 'n'] then
      match previous with
      | some span => .error (.here .missingUnpackName span)
      | none => .error (.here .missingNameBeforeIn name)
    else r.checkLoopNames (some name) rest

/-- The header of a `for` tag. -/
def loopHeader (r : Reader) (tag parts : Span) : Except TemplateError LoopHeader := do
  let (words, reader) := (LoopReader.ofParts r.source parts).names
  r.checkLoopNames none words.words
  match ← words.toExcept with
  | [] => throw (.here .missingLoopName tag)
  | first :: others =>
    let (read, reader) := reader.keyword
    read
    let (operand, reader) := reader.iterable
    let operand ← operand
    let backwards ← reader.direction
    if operand.kind = .numeric then
      throw (.here (.notIterable (r.textAt operand.span)) operand.span)
    else
      let iterable ← r.expression operand
      return {
        names := (first :: others).map r.textAt
        namesSpan := first.through (others.getLast?.getD first)
        iterable
        backwards }

/-- Whether an argument is a bare word. -/
def isBareWord (word : CallWord) : Bool := word.operand.kind = .path && word.keyword.isNone

/-- **The arguments of a call and its target:** the name behind a last `as`. -/
def splitTarget (r : Reader) (words : List CallWord) : List CallWord × Option String :=
  match words.reverse with
  | target :: keyword :: rest =>
    if isBareWord keyword && isBareWord target &&
        keyword.operand.span.slice r.source = ['a', 's'] &&
        Text.isIdentifier (target.operand.span.slice r.source) then
      (rest.reverse, some (r.textAt target.operand.span))
    else (words, none)
  | _ => (words, none)

/-- An argument and the name in front of it. -/
def argument (r : Reader) (word : CallWord) : Except TemplateError (Option String × Expression) := do
  return (word.keyword.map r.textAt, ← r.expression word.operand)

/-- The route of a `url` tag. -/
def routeCall (r : Reader) (tag parts : Span) : Except TemplateError RouteCall := do
  match ← CallWord.all r.source parts with
  | [] => throw (.here .missingRouteName tag)
  | first :: rest =>
    if first.operand.kind = .numeric then
      throw (.here .numericRouteName first.operand.span)
    else
      let route ← r.expression first.operand
      let (words, target) := r.splitTarget rest
      let arguments ← words.mapM r.argument
      let positional := arguments.filterMap fun
        | (none, e) => some e
        | _ => none
      let keyword := arguments.filterMap fun
        | (some name, e) => some (name, e)
        | _ => none
      if !positional.isEmpty && !keyword.isEmpty then throw (.here .mixedArguments tag)
      else return { route, positional, keyword, target }

/-- The arguments of a call checked so far, and the names that have not got a value yet. -/
structure Checked where
  positional : List Expression := []
  keyword : List (String × Expression) := []
  /-- The places of the keyword arguments. -/
  keywordSpans : List (String × Span) := []
  openParams : List String
  openKeywords : List String

/-- **Checks one more argument** against the signature of a tag. -/
def checkArgument (r : Reader) (name : String) (s : Signature) (c : Checked) (word : CallWord) :
    Except TemplateError Checked := do
  let e ← r.expression word.operand
  match word.keyword with
  | some keywordSpan =>
    let keyword := r.textAt keywordSpan
    let span := keywordSpan.through word.operand.span
    if !s.params.contains keyword && !s.keywordOnly.contains keyword && s.varkw.isNone then
      throw (.here .unexpectedKeyword span)
    match c.keywordSpans.lookup keyword with
    | some first => throw (.here (.duplicateKeyword name keyword first) span)
    | none =>
      let isParam := c.openParams.contains keyword
      return { c with
        keyword := c.keyword ++ [(keyword, e)]
        keywordSpans := c.keywordSpans ++ [(keyword, span)]
        openParams := if isParam then c.openParams.erase keyword else c.openParams
        openKeywords := if isParam then c.openKeywords else c.openKeywords.erase keyword }
  | none =>
    match c.keywordSpans.getLast? with
    | some (_, last) => throw (.here (.positionalAfterKeyword last) word.operand.span)
    | none =>
      if c.openParams.isEmpty && s.varargs.isNone then
        throw (.here .unexpectedPositional word.operand.span)
      else
        return { c with
          positional := c.positional ++ [e]
          openParams := c.openParams.tail }

/-- The names that are left after those with a default are taken off the end. With fewer names than
defaults the difference is taken off once more. -/
def withoutDefaults (names : List String) (defaults : Nat) : List String :=
  if defaults ≤ names.length then names.take (names.length - defaults)
  else names.take (2 * names.length - defaults)

/-- The call of a tag with a function; `loaded` is the place that the tag was loaded at. -/
def functionCall (r : Reader) (name : String) (f : Function) (takesScope : Bool) (loaded : Span)
    (parts : Span) : Except TemplateError TagCall := do
  if LoadedTag.lacksScopeParameter f takesScope then
    throw (.here (.missingScopeParameter name) loaded)
  let s := LoadedTag.callSignature f takesScope
  let (words, target) := r.splitTarget (← CallWord.all r.source parts)
  let required := s.keywordOnly.filter fun k => (s.keywordDefaults.lookup k).isNone
  let checked ← words.foldlM (r.checkArgument name s)
    { openParams := s.params, openKeywords := required }
  let missing := withoutDefaults checked.openParams s.defaults.length ++ checked.openKeywords
  if !missing.isEmpty then
    throw (.here (.missingArguments name (", ".intercalate (missing.map Signature.quotedName)))
      parts)
  return {
    name, function := f, takesScope
    positional := checked.positional, keyword := checked.keyword, target }

/-- **The call of a loaded tag.** -/
def tagCall (r : Reader) (tag : LoadedTag) (loaded : Span) (span parts : Span) :
    Except TemplateError TagCall :=
  match tag.tag with
  | .unsupported => .error (.here (.unsupportedTag tag.name) span)
  | .simple f takesScope => r.functionCall tag.name f takesScope loaded parts

end Galley.Reader
