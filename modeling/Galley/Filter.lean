import Galley.Resolve
import Galley.Text.Markup
import Galley.Text.Slug
import Galley.Text.Wrap
import Galley.Value.Arithmetic
import Galley.Value.Iterate

/-!
# Applying filters

A filter turns a value into another one. Those that work on texts take a missing value for an empty
text, and keep a safe text safe.

* `Value.toWidth`: the width that an argument asks for.
* `BuiltinFilter.apply`, `applyLoaded`: the filters that are always there, and those of libraries.
* `Expression.resolve`: the value of an expression.
-/

namespace Galley

/-- The text of a value; a missing one has an empty text. -/
def textOrEmpty : Option Value → Except HostError String
  | none => .ok ""
  | some v => v.toText

/-- Whether a value is a safe text. -/
def isSafeText (v : Option Value) : Bool := v.any (·.isSafe)

/-- A text that is safe if the value that it was made from was. -/
def keepSafe (v : Option Value) (text : String) : Value :=
  if isSafeText v then .safe text else .str text

/-- **The width that an argument asks for.** Numbers are truncated, everything else is read from
its text. -/
def Value.toWidth (v : Value) (argument : Atom) : Except Fault Int := do
  let fail {α : Type} (cause : Cause) : Except Fault α :=
    .error (.template (.here cause argument.span))
  let bounded (n : Int) : Except Fault Int :=
    if Integer.fitsWord n then .ok n
    else if Integer.hasText n then fail (.integerOverflow n)
    else .error (.host .tooManyDigits)
  match v with
  | .bool b => return if b then 1 else 0
  | .int n => bounded n
  | .nan _ => fail (.notFinite "nan")
  | .float x =>
    match (Binary.decode x).truncate? with
    | some n => bounded n
    | .none => fail (.notFinite (floatText x))
  | v =>
    match v.text?.bind fun text => Integer.read? text.toList with
    | some n => bounded n
    | .none =>
      match if argument.isText then v.substitute "'" "'" else v.toText with
      | .ok shown => fail (.notAnInteger shown)
      | .error e => throw (.host e)

/-- **A sum that is always something:** of two integers if both values convert to one, else of the
values as they are, else missing. Only an infinity has no sum. -/
def Value.sumOrMissing (a b : Value) : Except HostError (Option Value) :=
  let integers := do return (← a.toInteger) + (← b.toInteger)
  match integers with
  | .ok n => .ok (some (.int n))
  | .error e =>
    if e.kind = "OverflowError" then .error e else .ok (a.add b).toOption

/-- A text in the middle of a field of the given width. An odd blank goes to the right if the width
is even, else to the left. -/
def centered (width : Int) (text : List Char) : List Char :=
  let room := (width - text.length).toNat
  let left := room / 2 + (if room % 2 = 1 && width % 2 = 1 then 1 else 0)
  List.replicate left ' ' ++ text ++ List.replicate (room - left) ' '

/-- A text with a backslash before each quote and each backslash. -/
def slashed (text : List Char) : List Char :=
  text.flatMap fun c => if c = '\\' || c = '"' || c = '\'' then ['\\', c] else [c]

/-- The texts for true, false and nothing that a list of choices holds. A third one may be left out,
and there is no choice with less than two. -/
def choicesOf? (choices : List Char) : Option (String × String × String) :=
  match (Text.splitOn ',' choices).map String.ofList with
  | [yes, no, maybe] => some (yes, no, maybe)
  | yes :: no :: _ => some (yes, no, no)
  | _ => none

/-- One of three texts by the truth of a value. -/
def chooseText (v : Option Value) (choices : Value) : Except HostError (Option Value) := do
  match choicesOf? (← choices.toText).toList with
  | none => return v
  | some (yes, no, maybe) =>
    match v with
    | none => return some (.str no)
    | some .none => return some (.str maybe)
    | some w => return some (.str (if ← w.truth then yes else no))

/-- The argument of a filter with its value. -/
structure Argument where
  atom : Atom
  value : Value

/-- What a step of the application comes to. -/
def ofHost {α : Type} (outcome : Except HostError α) : Except Fault α :=
  match outcome with
  | .ok a => .ok a
  | .error e => .error (.host e)

/-- A filter that works on the text of a value and keeps it safe. -/
def onText (v : Option Value) (f : List Char → List Char) : Except Fault (Option Value) := do
  let text ← ofHost (textOrEmpty v)
  return some (keepSafe v (String.ofList (f text.toList)))

/-- Whether a filter looks at its argument if it is applied to a value. -/
def BuiltinFilter.usesArgument (f : BuiltinFilter) (v : Option Value) : Bool :=
  match f with
  | .add => v.isSome
  | .default => v.isNone
  | _ => true

/-- **A filter that is always there**, applied to a value. -/
def BuiltinFilter.apply (f : BuiltinFilter) (argument : Option Argument) (v : Option Value) :
    Except Fault (Option Value) := do
  let given := argument.getD ⟨.text ⟨0, 0⟩ "", .str ""⟩
  match f with
  | .add =>
    match v with
    | none => return none
    | some v => ofHost (v.sumOrMissing given.value)
  | .addslashes => onText v slashed
  | .capfirst => onText v Text.capitalizeFirst
  | .center =>
    let width ← given.value.toWidth given.atom
    let text ← ofHost (textOrEmpty v)
    if Value.longestSequence < width then throw (.host .outOfMemory)
    return some (keepSafe v (String.ofList (centered width text.toList)))
  | .default => return some (v.getD given.value)
  | .escape =>
    if isSafeText v then return v
    return some (.safe (Text.escapeMarkup (← ofHost (textOrEmpty v))))
  | .lower => onText v Text.lower
  | .safe => return some (.safe (← ofHost (textOrEmpty v)))
  | .slugify =>
    match v with
    | some (.int n) => return some (.str (← ofHost (Value.int n).toText))
    | some (.float x) => return some (.str (floatText x))
    | some (.nan _) => return some (.str "nan")
    | v => onText v Text.slug
  | .upper => onText v Text.upper
  | .wordwrap =>
    let width ← given.value.toWidth given.atom
    if width ≤ 0 then
      throw (.host (.valueError ("invalid width " ++ toString width ++ " (must be > 0)")))
    onText v (Text.wrapLines width.toNat)
  | .yesno =>
    let choices := match argument with
      | none => .str (translate "yes,no,maybe")
      | some given => given.value
    ofHost (chooseText v choices)

/-- A value that is declared to be safe. What announces markup is trusted already. -/
def Value.declaredSafe (v : Value) : Except HostError Value :=
  match v with
  | .text .markup _ => .ok v
  | .object identity _ _ => if identity.markup then .ok v else .ok (.safe identity.text)
  | v => v.toText.map .safe

/-- **A filter of a library**, applied to a value; a missing one counts as an empty text. -/
def applyLoaded (f : Function) (argument : Option Argument) (v : Option Value) (scope : Scope) :
    Except Fault (Option Value) := do
  let v := v.getD (.str "")
  let arguments := v :: (argument.map (·.value)).toList
  let keywords := if f.needsAutoescape then [("autoescape", .bool scope.autoescape)] else []
  let result ← ofHost (f.call arguments keywords scope.refreshed).1
  if f.isSafe && v.isSafe then return some (← ofHost result.declaredSafe) else return some result

/-- The argument of a filter in use, if it has one and looks at it. -/
def FilterUse.given (use : FilterUse) (v : Option Value) : Rendering (Option Argument) := do
  match use.argument, use.filter with
  | none, _ => return none
  | some a, .builtin f =>
    if f.usesArgument v then return some ⟨a, ← a.resolvePresent⟩ else return none
  | some a, .loaded .. => return some ⟨a, ← a.resolvePresent⟩

/-- **A filter in use**, applied to a value. Its argument comes first, and may take something from
the value. -/
def FilterUse.apply (use : FilterUse) (v : Option Value) : Rendering (Option Value) := do
  let given ← use.given v
  let v ← v.mapM Rendering.current
  match use.filter with
  | .builtin f => Rendering.ofExcept (f.apply given v)
  | .loaded _ f =>
    let result ← Rendering.ofExcept (applyLoaded f given v (← get))
    result.mapM Rendering.numbered

/-- **The value of an expression.** -/
def Expression.resolve (e : Expression) (strictness : Strictness) : Rendering (Option Value) := do
  e.filters.foldlM (fun v use => use.apply v) (← e.head.resolve strictness)

end Galley
