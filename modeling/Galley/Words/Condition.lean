import Galley.Operator
import Galley.Words.Literal

/-!
# The words of a condition

The parts of an `if` tag are operands and comparison signs separated by blanks. The words `and`,
`or`, `not`, `in` and `is` still look like variables here.

* `ConditionWord.step`: the next word.
-/

namespace Galley

/-- A word of a condition. -/
inductive ConditionWord where
  | comparison (operator : Operator) (span : Span)
  | operand (operand : Operand)
deriving DecidableEq

namespace ConditionWord

/-- The comparison sign that a word is. -/
def comparison? (word : List Char) : Option Operator :=
  (Operator.all.filter Operator.isComparison).find? (·.symbol.toList = word)

/-- **One step through the words.** Text directly behind a literal ends the words; other errors
leave the cursor where it is. -/
def step : Cursor.Step ConditionWord := fun c =>
  if c.rest.isEmpty then none
  else
    let n := Text.wordLength c.rest
    match comparison? (c.rest.take n) with
    | some operator =>
      some (.ok (.comparison operator (c.ahead n)),
        c.advance (n + Text.blankLength (c.rest.drop n)))
    | none =>
      match c.operand with
      | .error e => some (.error e, c)
      | .ok (value, behind) =>
        match behind.separated with
        | .error e => some (.error e, behind.finish)
        | .ok next => some (.ok (.operand value), next)

/-- All words in the parts of a tag. -/
def all (source : List Char) (parts : Span) : Cursor.Words ConditionWord :=
  Cursor.readAll step (.ofSpan source parts)

end ConditionWord

end Galley
