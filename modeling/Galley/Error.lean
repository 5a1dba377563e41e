import Galley.Span
import Galley.Text.Quoted

/-!
# Errors

A template goes wrong in two ways. A `TemplateError` is the template's own fault and names the
place in its text; a `HostError` comes from a value or function of the application.

* `Cause`: what can be wrong with a template, in three families.
* `TemplateError.message`, `TemplateError.labels`, `TemplateError.help?`: how it is described.
* `TemplateError.surface`: the error that the application sees instead.
-/

namespace Galley

/-- An error of the application: its kind, its text, and whether a failed lookup may hide it. -/
structure HostError where
  kind : String
  text : String
  silent : Bool := false
deriving DecidableEq, Inhabited

namespace HostError

/-- An error that leaves a generated text. The end of a walk must not look like the end of the
text. -/
def leavingText (e : HostError) : HostError :=
  if e.kind = "StopIteration" then
    { kind := "RuntimeError", text := "generator raised StopIteration" }
  else e

/-- The kinds of error that show the text they were raised with whatever becomes of them. -/
def lastingKinds : List String :=
  ["ImportError", "ModuleNotFoundError", "SyntaxError", "IndentationError", "TabError"]

/-- The error with another text, if its kind allows for that. -/
def withText (e : HostError) (text : String) : HostError :=
  if lastingKinds.contains e.kind then e else { e with text }

/-- An error raised with a message. The text of a missing key shows the key in quotes. -/
def raised (kind message : String) (silent : Bool) : HostError :=
  ⟨kind, if kind = "KeyError" then Text.quoted message else message, silent⟩

def typeError (text : String) : HostError := { kind := "TypeError", text }
def valueError (text : String) : HostError := { kind := "ValueError", text }
def indexError (text : String) : HostError := { kind := "IndexError", text }
def attributeError (text : String) : HostError := { kind := "AttributeError", text }
def overflowError (text : String) : HostError := { kind := "OverflowError", text }

/-- A character was asked for where there is none. -/
def endOfText : HostError := indexError "string index out of range"

/-- There is no room for a value. -/
def outOfMemory : HostError := { kind := "MemoryError", text := "" }

/-- An integer with more digits than are written. -/
def tooManyDigits : HostError :=
  valueError ("Exceeds the limit (4300 digits) for integer string conversion; " ++
    "use sys.set_int_max_str_digits() to increase the limit")

end HostError

/-- When an error is found: reading words, building the tree, or rendering it. -/
inductive Family where
  | lexical
  | syntactic
  | render
deriving DecidableEq

/-- What is wrong with a template. -/
inductive Cause where
  -- reading words
  | incompleteString
  | incompleteTranslation
  | missingTranslation
  | invalidName
  | invalidRemainder
  | leadingUnderscore
  | invalidFilterName
  | invalidTagName
  | incompleteKeyword
  | invalidLoopName (name : String)
  | missingLoopExpression
  | unexpectedLoopExpression
  | missingComma
  | missingIn
  | invalidSwitch
  | missingSwitch
  | extraSwitch
  -- building the tree
  | emptyTag
  | emptyVariable
  | missingArgument
  | unexpectedArgument
  | invalidNumber
  | unknownFilter (name : String)
  | mixedArguments
  | numericRouteName
  | missingRouteName
  | unexpectedTag (name : String)
  | wrongEndTag (name expected : String) (start : Span)
  | missingEndTag (name expected : String)
  | invalidVerbatim
  | unknownLibrary (name : String) (known : List String)
  | unknownMember (name library : String) (librarySpan : Span)
  | missingCondition
  | unexpectedEnd
  | misplacedOperator (operator : String)
  | unusedExpression (expression : String)
  | missingLoopName
  | missingNameBeforeIn
  | missingUnpackName
  | notIterable (literal : String)
  | unexpectedPositional
  | positionalAfterKeyword (keyword : Span)
  | unexpectedKeyword
  | duplicateKeyword (name keyword : String) (first : Span)
  | missingArguments (name missing : String)
  | missingScopeParameter (name : String)
  | unsupportedTag (name : String)
  -- rendering
  | failedLookup (key object : String) (objectSpan : Option Span)
  | missingOperand (key object : String)
  | unpackMismatch (expected actual : Int) (source : Span)
  | notAnInteger (argument : String)
  | notFinite (argument : String)
  | integerOverflow (argument : Int)
  | raised (error : HostError) (label : String)
deriving DecidableEq

/-- An error with its place in the template text. -/
structure TemplateError where
  span : Option Span
  cause : Cause
deriving DecidableEq

/-- Whatever stops the compilation or the rendering of a template. -/
inductive Fault where
  | template (error : TemplateError)
  | host (error : HostError)
deriving DecidableEq

namespace Cause

/-- The family of a cause. -/
def family : Cause → Family
  | incompleteString | incompleteTranslation | missingTranslation | invalidName | invalidRemainder
  | leadingUnderscore | invalidFilterName | invalidTagName | incompleteKeyword | invalidLoopName _
  | missingLoopExpression | unexpectedLoopExpression | missingComma | missingIn | invalidSwitch
  | missingSwitch | extraSwitch => .lexical
  | failedLookup .. | missingOperand .. | unpackMismatch .. | notAnInteger _ | notFinite _
  | integerOverflow _ | raised .. => .render
  | _ => .syntactic

/-- The name under which a cause is reported. -/
def name : Cause → String
  | incompleteString => "IncompleteString"
  | incompleteTranslation => "IncompleteTranslatedString"
  | missingTranslation => "MissingTranslatedString"
  | invalidName => "InvalidVariableName"
  | invalidRemainder => "InvalidRemainder"
  | leadingUnderscore => "LeadingUnderscore"
  | invalidFilterName => "InvalidFilterName"
  | invalidTagName => "InvalidTagName"
  | incompleteKeyword => "IncompleteKeywordArgument"
  | invalidLoopName _ => "InvalidForName"
  | missingLoopExpression => "MissingForExpression"
  | unexpectedLoopExpression => "UnexpectedForExpression"
  | missingComma => "MissingComma"
  | missingIn => "MissingIn"
  | invalidSwitch => "InvalidAutoescapeArgument"
  | missingSwitch => "MissingAutoescapeArgument"
  | extraSwitch => "UnexpectedAutoescapeArgument"
  | emptyTag => "EmptyTag"
  | emptyVariable => "EmptyVariable"
  | missingArgument => "MissingArgument"
  | unexpectedArgument => "UnexpectedArgument"
  | invalidNumber => "InvalidNumber"
  | unknownFilter _ => "InvalidFilter"
  | mixedArguments => "MixedArgsKwargs"
  | numericRouteName => "NumericUrlName"
  | missingRouteName => "UrlTagNoArguments"
  | unexpectedTag _ => "UnexpectedTag"
  | wrongEndTag .. => "WrongEndTag"
  | missingEndTag .. => "MissingEndTag"
  | invalidVerbatim => "InvalidVerbatimTag"
  | unknownLibrary .. => "MissingTagLibrary"
  | unknownMember .. => "MissingFilterTag"
  | missingCondition => "MissingBooleanExpression"
  | unexpectedEnd => "UnexpectedEndExpression"
  | misplacedOperator _ => "InvalidIfPosition"
  | unusedExpression _ => "UnusedExpression"
  | missingLoopName => "MissingVariableName"
  | missingNameBeforeIn => "MissingVariableBeforeIn"
  | missingUnpackName => "MissingUnpackVariable"
  | notIterable _ => "NotIterable"
  | unexpectedPositional => "UnexpectedPositionalArgument"
  | positionalAfterKeyword _ => "PositionalAfterKeyword"
  | unexpectedKeyword => "UnexpectedKeywordArgument"
  | duplicateKeyword .. => "DuplicateKeywordArgument"
  | missingArguments .. => "MissingArguments"
  | missingScopeParameter _ => "MissingContextArgument"
  | unsupportedTag _ => "UnsupportedTag"
  | failedLookup .. => "VariableDoesNotExist"
  | missingOperand .. => "ArgumentDoesNotExist"
  | unpackMismatch .. => "TupleUnpackError"
  | notAnInteger _ => "InvalidArgumentInteger"
  | notFinite _ => "InvalidArgumentFloat"
  | integerOverflow _ => "IntegerOverflow"
  | raised .. => "AnnotatedError"

/-- What is wrong, in words. -/
def message : Cause → String
  | incompleteString => "Expected a complete string literal"
  | incompleteTranslation => "Expected a complete translation string"
  | missingTranslation => "Expected a string literal within translation"
  | invalidName => "Expected a valid variable name"
  | invalidRemainder => "Could not parse the remainder"
  | leadingUnderscore => "Variables and attributes may not begin with underscores"
  | invalidFilterName => "Expected a valid filter name"
  | invalidTagName => "Invalid block tag name"
  | incompleteKeyword => "Incomplete keyword argument"
  | invalidLoopName name => "Invalid variable name " ++ name ++ " in for loop:"
  | missingLoopExpression => "Expected an expression after the 'in' keyword:"
  | unexpectedLoopExpression => "Unexpected expression in for loop:"
  | missingComma => "Unexpected expression in for loop. Did you miss a comma when unpacking?"
  | missingIn => "Expected the 'in' keyword or a variable name:"
  | invalidSwitch => "'autoescape' argument should be 'on' or 'off'."
  | missingSwitch => "'autoescape' tag missing an 'on' or 'off' argument."
  | extraSwitch => "'autoescape' tag requires exactly one argument."
  | emptyTag => "Empty block tag"
  | emptyVariable => "Empty variable tag"
  | missingArgument => "Expected an argument"
  | unexpectedArgument => "Unexpected argument"
  | invalidNumber => "Invalid numeric literal"
  | unknownFilter name => "Invalid filter: '" ++ name ++ "'"
  | mixedArguments => "Cannot mix arguments and keyword arguments"
  | numericRouteName => "'url' view name must be a string or variable, not a number"
  | missingRouteName => "'url' takes at least one argument, a URL pattern name"
  | unexpectedTag name => "Unexpected tag " ++ name
  | wrongEndTag name expected _ => "Unexpected tag " ++ name ++ ", expected " ++ expected
  | missingEndTag name expected =>
    "Unclosed '" ++ name ++ "' tag. Looking for one of: " ++ expected
  | invalidVerbatim => "'verbatim' must be separated from its name by a single space"
  | unknownLibrary name _ => "'" ++ name ++ "' is not a registered tag library."
  | unknownMember name library _ =>
    "'" ++ name ++ "' is not a valid tag or filter in tag library '" ++ library ++ "'"
  | missingCondition => "Missing boolean expression"
  | unexpectedEnd => "Unexpected end of expression"
  | misplacedOperator operator => "Not expecting '" ++ operator ++ "' in this position"
  | unusedExpression expression => "Unused expression '" ++ expression ++ "' in if tag"
  | missingLoopName => "Expected at least one variable name in for loop:"
  | missingNameBeforeIn => "Expected a variable name before the 'in' keyword:"
  | missingUnpackName => "Expected another variable when unpacking in for loop:"
  | notIterable literal => literal ++ " is not iterable"
  | unexpectedPositional => "Unexpected positional argument"
  | positionalAfterKeyword _ => "Unexpected positional argument after keyword argument"
  | unexpectedKeyword => "Unexpected keyword argument"
  | duplicateKeyword name keyword _ =>
    "'" ++ name ++ "' received multiple values for keyword argument '" ++ keyword ++ "'"
  | missingArguments name missing =>
    "'" ++ name ++ "' did not receive value(s) for the argument(s): " ++ missing
  | missingScopeParameter name =>
    "'" ++ name ++ "' is decorated with takes_context=True so it must have a " ++
      "first argument of 'context'"
  | unsupportedTag name => "'" ++ name ++ "' is not a simple tag and cannot be used here"
  | failedLookup key object _ | missingOperand key object =>
    "Failed lookup for key [" ++ key ++ "] in " ++ object
  | unpackMismatch expected actual _ =>
    "Need " ++ toString expected ++ " values to unpack; got " ++ toString actual ++ "."
  | notAnInteger argument => "Couldn't convert argument (" ++ argument ++ ") to integer"
  | notFinite argument => "Couldn't convert float (" ++ argument ++ ") to integer"
  | integerOverflow argument => "Integer " ++ toString argument ++ " is too large"
  | raised error _ => error.text

/-- What is written at the place of the error itself. -/
def label : Cause → String
  | invalidLoopName _ => "invalid variable name"
  | missingLoopExpression => "after this keyword"
  | unexpectedLoopExpression | missingComma => "unexpected expression"
  | missingIn => "after this name"
  | unexpectedTag _ | wrongEndTag .. => "unexpected tag"
  | missingEndTag .. => "started here"
  | unknownMember .. => "tag or filter"
  | unexpectedEnd => "after this"
  | missingLoopName => "in this tag"
  | missingNameBeforeIn => "before this keyword"
  | missingUnpackName => "after this variable"
  | positionalAfterKeyword _ => "this positional argument"
  | duplicateKeyword .. => "second"
  | missingScopeParameter _ => "loaded here"
  | failedLookup .. | missingOperand .. => "key"
  | unpackMismatch .. => "unpacked here"
  | notAnInteger _ => "argument"
  | raised _ label => label
  | _ => "here"

end Cause

/-- A remark on a place in the template text. -/
structure Label where
  span : Span
  text : String
deriving DecidableEq

namespace TemplateError

/-- An error at a known place. -/
def here (cause : Cause) (span : Span) : TemplateError := ⟨some span, cause⟩

/-- An error of the host on the way, which is no error of the template and has no place in it. -/
def ofHost (error : HostError) : TemplateError := ⟨none, .raised error ""⟩

/-- What is wrong, in words. -/
def message (e : TemplateError) : String := e.cause.message

/-- **The places an error refers to**, in the order in which they are listed. -/
def labels (e : TemplateError) : List Label :=
  let own := (e.span.map fun span => Label.mk span e.cause.label).toList
  match e.cause with
  | .wrongEndTag _ _ start => ⟨start, "start tag"⟩ :: own
  | .unknownMember _ _ library => own ++ [⟨library, "library"⟩]
  | .positionalAfterKeyword keyword => ⟨keyword, "after this keyword argument"⟩ :: own
  | .duplicateKeyword _ _ first => ⟨first, "first"⟩ :: own
  | .failedLookup _ object place => (place.map fun span => Label.mk span object).toList ++ own
  | .unpackMismatch _ _ source => own ++ [⟨source, "from here"⟩]
  | _ => own

/-- Whether two errors are equal. One that the application raised is only equal to itself. -/
def equals (a b : TemplateError) : Bool :=
  match a.cause with
  | .raised .. => false
  | _ => a = b

/-- Advice on how to mend the template. -/
def help? (e : TemplateError) : Option String :=
  match e.cause with
  | .unknownLibrary _ known => some ("Must be one of:\n" ++ "\n".intercalate known)
  | _ => none

/-- A short description for the programmer: the name, the place and the message. -/
def describe (e : TemplateError) : String :=
  let place := match e.span with
    | some span => "(" ++ toString span.start ++ ", " ++ toString span.length ++ ")"
    | none => "None"
  "<" ++ e.cause.name ++ " at=" ++ place ++ " " ++ Text.quoted e.message ++ ">"

/-- **The error that the application sees**, given the report of the template's error. An error
that the application raised itself keeps its kind. -/
def surface (e : TemplateError) (report : String) : HostError :=
  match e.cause with
  | .failedLookup .. | .missingOperand .. => { kind := "VariableDoesNotExist", text := report }
  | .raised error _ => error.withText report
  | .notFinite argument =>
    if argument = "nan" then .valueError report else .overflowError report
  | .integerOverflow _ => .overflowError report
  | cause =>
    match cause.family with
    | .render => .valueError report
    | _ => { kind := "TemplateSyntaxError", text := report }

end TemplateError

end Galley
