import Galley.Scope

/-!
# Functions of the application

Tags and filters of a library are functions. A `Signature` says what arguments a function takes, and
a call binds the arguments it is given to the names of the signature before anything runs.

* `Signature.complete`: the values of all names, given or by default.
* `Signature.bind`: binding the arguments of a call.
* `Function.call`: calling a function.
* `Function.arity`: how many arguments a function takes when it is used as a filter.
-/

namespace Galley

/-- What arguments a function takes. -/
structure Signature where
  /-- Names of arguments that may be given by position. -/
  params : List String := []
  /-- Values of the last of them. -/
  defaults : List Value := []
  /-- The name under which further positional arguments are collected. -/
  varargs : Option String := none
  /-- Names of arguments that must be given by keyword. -/
  keywordOnly : List String := []
  keywordDefaults : List (String × Value) := []
  /-- The name under which further keyword arguments are collected. -/
  varkw : Option String := none

/-- The arguments of a call under the names of the signature. -/
structure Bindings where
  named : List (String × Value)
  positional : List Value
  keyword : List (String × Value)

namespace Bindings

/-- The value of a named argument. -/
def get (b : Bindings) (name : String) : Value := (b.named.lookup name).getD .none

end Bindings

namespace Signature

/-- A name in quotes. -/
def quotedName (name : String) : String := "'" ++ name ++ "'"

/-- Names in quotes with commas and an `and` between them. -/
def enumerated : List String → String
  | [] => ""
  | [a] => quotedName a
  | [a, b] => quotedName a ++ " and " ++ quotedName b
  | names =>
    ", ".intercalate (names.dropLast.map quotedName) ++ ", and " ++
      quotedName (names.getLast?.getD "")

/-- An ending for more than one. -/
def plural (n : Nat) : String := if n = 1 then "" else "s"

/-- The default of each positional argument that has one. -/
def positionalDefaults (s : Signature) : List (String × Value) :=
  (s.params.drop (s.params.length - s.defaults.length)).zip s.defaults

/-- The error of too many positional arguments. -/
def tooMany (s : Signature) (function : String) (given keywordsGiven : Nat) : HostError :=
  let most := s.params.length
  let takes :=
    if s.defaults.isEmpty then toString most ++ " positional argument" ++ plural most
    else
      "from " ++ toString (most - s.defaults.length) ++ " to " ++ toString most ++
        " positional arguments"
  let got :=
    if keywordsGiven = 0 then toString given ++ (if given = 1 then " was" else " were")
    else
      toString given ++ " positional argument" ++ plural given ++ " (and " ++
        toString keywordsGiven ++ " keyword-only argument" ++ plural keywordsGiven ++ ") were"
  .typeError (function ++ "() takes " ++ takes ++ " but " ++ got ++ " given")

/-- The error of missing arguments. -/
def missing (function kind : String) (names : List String) : HostError :=
  .typeError (function ++ "() missing " ++ toString names.length ++ " required " ++ kind ++
    " argument" ++ plural names.length ++ ": " ++ enumerated names)

/-- The arguments given by name so far, and those that are collected. -/
abbrev Given := List (String × Value) × List (String × Value)

/-- Takes up one keyword argument. No name may be given twice, and only names of the signature may
be given unless further ones are collected. -/
def takeKeyword (s : Signature) (function : String) (given : Given) (keyword : String × Value) :
    Except HostError Given :=
  if s.params.contains keyword.1 || s.keywordOnly.contains keyword.1 then
    if (given.1.lookup keyword.1).isSome then
      .error (.typeError (function ++ "() got multiple values for argument " ++
        quotedName keyword.1))
    else .ok (given.1 ++ [keyword], given.2)
  else if s.varkw.isSome then .ok (given.1, given.2 ++ [keyword])
  else
    .error (.typeError (function ++ "() got an unexpected keyword argument " ++
      quotedName keyword.1))

/-- The values of all names that have one: the one that was given, else the default. -/
def complete (s : Signature) (given : List (String × Value)) : List (String × Value) :=
  given ++ (s.positionalDefaults ++ s.keywordDefaults).filter fun d => (given.lookup d.1).isNone

/-- The names that have no value. -/
def lacking (values : List (String × Value)) (names : List String) : List String :=
  names.filter fun name => (values.lookup name).isNone

/-- **Binding.** The arguments of a call under the names of the signature, or the first reason why
they do not fit it. -/
def bind (s : Signature) (function : String) (positional : List Value)
    (keywords : List (String × Value)) : Except HostError Bindings := do
  let (given, further) ←
    keywords.foldlM (s.takeKeyword function) (s.params.zip positional, [])
  if s.params.length < positional.length && s.varargs.isNone then
    let keywordsGiven := s.keywordOnly.filter fun name => (given.lookup name).isSome
    throw (s.tooMany function positional.length keywordsGiven.length)
  let values := s.complete given
  if !(lacking values s.params).isEmpty then
    throw (missing function "positional" (lacking values s.params))
  if !(lacking values s.keywordOnly).isEmpty then
    throw (missing function "keyword-only" (lacking values s.keywordOnly))
  let named := (s.params ++ s.keywordOnly).map fun name => (name, (values.lookup name).getD .none)
  return ⟨named, positional.drop s.params.length, further⟩

end Signature

/-- What a function does with its arguments. -/
inductive Action where
  /-- It computes a value. -/
  | compute (run : Bindings → Except HostError Value)
  /-- It may also change the scope. -/
  | act (run : Bindings → Scope → Except HostError Value × Scope)

/-- A function. -/
structure Function where
  name : String
  signature : Signature
  action : Action
  /-- Whether it keeps a safe text safe when it is used as a filter. -/
  isSafe : Bool := false
  /-- Whether it wants to know if autoescaping is on. -/
  needsAutoescape : Bool := false

/-- How many arguments a filter takes besides its value. -/
inductive Arity where
  | required
  | optional
  | forbidden
deriving DecidableEq

namespace Arity

/-- The word for an arity. -/
def word : Arity → String
  | required => "required"
  | optional => "optional"
  | forbidden => "forbidden"

end Arity

namespace Function

/-- **A call** in a scope. -/
def call (f : Function) (positional : List Value) (keywords : List (String × Value))
    (scope : Scope) : Except HostError Value × Scope :=
  match f.signature.bind f.name positional keywords with
  | .error e => (.error e, scope)
  | .ok bindings =>
    match f.action with
    | .compute run => (run bindings, scope)
    | .act run => run bindings scope

/-- The arity of a function as a filter: the value is its first argument, a second one is the
argument of the filter. -/
def arity (f : Function) : Arity :=
  let n := f.signature.params.length
  if n < 2 then .forbidden
  else if f.signature.defaults.isEmpty || f.signature.defaults.length < n - 1 then .required
  else .optional

/-- How a value is shown in an echo. -/
def echoValue (v : Value) : Except HostError String :=
  match v with
  | .scope .. => .ok "<context>"
  | v => v.repr

/-- **An echo:** the name of the function and all its arguments. -/
def echo (name : String) (s : Signature) (b : Bindings) : Except HostError Value := do
  let named ← b.named.mapM fun (k, v) => return k ++ "=" ++ (← echoValue v)
  let further ← match s.varargs with
    | none => pure []
    | some k => do
      let values ← b.positional.mapM echoValue
      pure [k ++ "=" ++ Value.tupleText values]
  let keyword ← match s.varkw with
    | none => pure []
    | some k => do
      let entries ← b.keyword.mapM fun (k, v) => return (Text.quoted k, ← echoValue v)
      pure [k ++ "=" ++ Value.dictText entries]
  return .str (name ++ "(" ++ Value.commas (named ++ further ++ keyword) ++ ")")

end Function

/-- A tag of a library: a function, or something that only its own library can run. -/
inductive LibraryTag where
  | simple (function : Function) (takesScope : Bool)
  | unsupported

/-- **A library** of tags and filters, in the order in which they were registered. -/
structure Library where
  tags : List (String × LibraryTag) := []
  filters : List (String × Function) := []

namespace Library

/-- Registers something under a name. A name that was registered before keeps its place. -/
def register {α : Type} (name : String) (item : α) (items : List (String × α)) :
    List (String × α) :=
  if (items.lookup name).isSome then
    items.map fun entry => if entry.1 = name then (name, item) else entry
  else items ++ [(name, item)]

end Library

/-- A tag that was loaded: what it is called and what it does. -/
structure LoadedTag where
  name : String
  tag : LibraryTag

namespace LoadedTag

/-- The signature without the scope, if the function takes it first. -/
def callSignature (f : Function) (takesScope : Bool) : Signature :=
  if takesScope && f.signature.params.head? = some "context" then
    { f.signature with params := f.signature.params.tail }
  else f.signature

/-- Whether a function is to take the scope but does not say so in its first argument. -/
def lacksScopeParameter (f : Function) (takesScope : Bool) : Bool :=
  takesScope && f.signature.params.head? ≠ some "context"

end LoadedTag

end Galley
