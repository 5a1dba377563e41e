import Galley.Operator
import Galley.Error

/-!
# Conditions

The condition of an `if` tag is a tree of operators over operands. It is built from a list of words
in one pass, with the operators that still wait for their right operand on a stack.

* `Condition.combine`: telling operators from operands, and joining `not in` and `is not`.
* `Condition.parse`: the tree of a list of words.
-/

namespace Galley

/-- A condition over operands of any type. -/
inductive Condition (α : Type) where
  | operand (value : α)
  | negation (condition : Condition α)
  | binary (operator : Operator) (left right : Condition α)

/-- A word of a condition that is an operand or the symbol of an operator. -/
inductive ConditionItem (α : Type) where
  | operand (value : α)
  | operator (symbol : String)
deriving DecidableEq

/-- A word of a condition with its place. -/
structure ConditionToken (α : Type) where
  span : Span
  item : ConditionItem α
deriving DecidableEq

namespace Condition

variable {α : Type}

/-- The operators that are written as words. -/
def wordOperators : List String := ["and", "or", "not", "in", "is"]

/-- The operator that a word makes together with the operator before it. -/
def joined? (previous : ConditionItem α) (word : String) : Option String :=
  match previous with
  | .operator symbol =>
    if (symbol = "not" && word = "in") || (symbol = "is" && word = "not") then
      some (symbol ++ " " ++ word)
    else none
  | .operand _ => none

/-- Adds a token to those combined so far, the latest first. -/
def combineStep (source : List Char) (done : List (ConditionToken α)) (token : ConditionToken α) :
    List (ConditionToken α) :=
  match token.item with
  | .operator _ => token :: done
  | .operand _ =>
    let word := String.ofList (token.span.slice source)
    if wordOperators.contains word then
      match done with
      | previous :: rest =>
        match joined? previous.item word with
        | some symbol => ⟨previous.span.through token.span, .operator symbol⟩ :: rest
        | none => ⟨token.span, .operator word⟩ :: done
      | [] => [⟨token.span, .operator word⟩]
    else token :: done

/-- **The operators among the words of a condition.** A word operator may join the operator before
it, from left to right. -/
def combine (source : List Char) (tokens : List (ConditionToken α)) : List (ConditionToken α) :=
  (tokens.foldl (combineStep source) []).reverse

/-- An operator that waits for its right operand. -/
inductive Pending (α : Type) where
  | negation
  | binary (left : Condition α) (operator : Operator)

/-- How tightly a waiting operator holds on to its right operand. -/
def Pending.power : Pending α → Nat
  | negation => Operator.notPower
  | binary _ operator => operator.power

/-- The condition that a waiting operator makes with its right operand. -/
def Pending.apply : Pending α → Condition α → Condition α
  | negation, right => .negation right
  | binary left operator, right => .binary operator left right

/-- Gives an operand to all waiting operators that hold on to it at least as tightly as an operator
of the given power that follows it. -/
def reduce (power : Nat) (operand : Condition α) :
    List (Pending α) → Condition α × List (Pending α)
  | [] => (operand, [])
  | waiting :: rest =>
    if power ≤ waiting.power then reduce power (waiting.apply operand) rest
    else (operand, waiting :: rest)

/-- Reads the tokens from here on. `operand` is what stands before them if it is complete; `last` is
the place of the token before them. -/
def parseFrom (source : List Char) (waiting : List (Pending α)) (operand : Option (Condition α))
    (last : Span) : List (ConditionToken α) → Except TemplateError (Condition α)
  | [] =>
    match operand with
    | none => .error (.here .unexpectedEnd last)
    | some c => .ok (reduce 0 c waiting).1
  | token :: rest =>
    match operand, token.item with
    | none, .operand value => parseFrom source waiting (some (.operand value)) token.span rest
    | none, .operator symbol =>
      if symbol = "not" then parseFrom source (.negation :: waiting) none token.span rest
      else .error (.here (.misplacedOperator symbol) token.span)
    | some _, .operand _ =>
      .error (.here (.unusedExpression (String.ofList (token.span.slice source))) token.span)
    | some c, .operator symbol =>
      match Operator.ofSymbol? symbol with
      | none => .error (.here (.misplacedOperator symbol) token.span)
      | some operator =>
        let (left, waiting) := reduce operator.power c waiting
        parseFrom source (.binary left operator :: waiting) none token.span rest

/-- **The tree of a condition** whose tag stands at `tag`. -/
def parse (source : List Char) (tag : Span) (tokens : List (ConditionToken α)) :
    Except TemplateError (Condition α) :=
  match tokens with
  | [] => .error (.here .missingCondition tag)
  | tokens => parseFrom source [] none tag tokens

end Condition

end Galley
