import Galley.Function

/-!
# Expressions

What stands in `{{ }}` and in the arguments of tags: an atom with the filters that are applied to
it, one after the other.

* `Atom`: a literal or a path.
* `FilterUse`: a filter with its argument, which is an atom again.
* `Expression`: an atom and its filters.
-/

namespace Galley

/-- A literal or a path. Spans of texts do not include their quotes. -/
inductive Atom where
  | int (span : Span) (value : Int)
  | float (span : Span) (value : Float)
  | text (span : Span) (value : String)
  | translated (span : Span) (value : String)
  /-- A variable and the names behind it. -/
  | path (span : Span) (root : String) (names : List String)
  /-- A running loop, so many levels out, one of its counters, and the names behind it. -/
  | loop (span : Span) (parents : Nat) (counter : Option LoopCounter) (names : List String)

namespace Atom

/-- The place of an atom. -/
def span : Atom → Span
  | int s _ | float s _ | text s _ | translated s _ | path s _ _ | loop s _ _ _ => s

/-- The name of the variable that a path begins with. -/
def rootName : Atom → String
  | path _ root _ => root
  | loop .. => "forloop"
  | _ => ""

/-- Whether an atom is a text literal. -/
def isText : Atom → Bool
  | text .. | translated .. => true
  | _ => false

end Atom

/-- The filters that are always there. -/
inductive BuiltinFilter where
  | add
  | addslashes
  | capfirst
  | center
  | default
  | escape
  | lower
  | safe
  | slugify
  | upper
  | wordwrap
  | yesno
deriving DecidableEq

namespace BuiltinFilter

/-- All of them. -/
def all : List BuiltinFilter :=
  [add, addslashes, capfirst, center, default, escape, lower, safe, slugify, upper, wordwrap, yesno]

/-- How a filter is written. -/
def word : BuiltinFilter → String
  | add => "add"
  | addslashes => "addslashes"
  | capfirst => "capfirst"
  | center => "center"
  | default => "default"
  | escape => "escape"
  | lower => "lower"
  | safe => "safe"
  | slugify => "slugify"
  | upper => "upper"
  | wordwrap => "wordwrap"
  | yesno => "yesno"

/-- The filter with a name. -/
def ofWord? (word : String) : Option BuiltinFilter := all.find? (·.word = word)

/-- How many arguments a filter takes. -/
def arity : BuiltinFilter → Arity
  | add | center | default | wordwrap => .required
  | yesno => .optional
  | _ => .forbidden

end BuiltinFilter

/-- A filter: one that is always there, or a function under the name it was loaded by. -/
inductive Filter where
  | builtin (filter : BuiltinFilter)
  | loaded (name : String) (function : Function)

namespace Filter

/-- The name of a filter. -/
def name : Filter → String
  | builtin f => f.word
  | loaded name _ => name

/-- How many arguments a filter takes. -/
def arity : Filter → Arity
  | builtin f => f.arity
  | loaded _ f => f.arity

end Filter

/-- A filter in use. Its span is that of its name. -/
structure FilterUse where
  span : Span
  filter : Filter
  argument : Option Atom

/-- **An expression.** Its filters are applied from the first to the last. -/
structure Expression where
  head : Atom
  filters : List FilterUse

namespace Expression

/-- The place that stands for an expression: that of its last filter, or of its atom. -/
def span (e : Expression) : Span :=
  match e.filters.getLast? with
  | some use => use.span
  | none => e.head.span

end Expression

end Galley
