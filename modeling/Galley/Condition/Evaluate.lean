import Galley.Condition
import Galley.Filter

/-!
# Evaluating conditions

A condition has a value, and a branch is taken if that value counts as true. Nothing goes wrong in a
condition: an operand that cannot be resolved counts as nothing, and an operator that cannot be
applied as false.

* `Operator.decided?`, `Operator.result?`: an operator applied to one value, and to two.
* `Condition.evaluate`: the value of a condition.
-/

namespace Galley

/-- **The answer that the first value decides.** That of `or` does if it counts as true, that of
`and` if it does not; a value without a truth makes either false. -/
def Operator.decided? (operator : Operator) (a : Value) : Option Value :=
  match operator, a.truth with
  | .either, .ok holds => if holds then some a else none
  | .both, .ok holds => if holds then none else some a
  | .either, .error _ | .both, .error _ => some (.bool false)
  | _, _ => none

/-- **An operator applied to two values,** of which the first does not decide, unless it cannot be
applied to them. -/
def Operator.result? (operator : Operator) (a b : Value) : Option Value :=
  match operator with
  | .either | .both => some b
  | .member => (b.holds? a).map .bool
  | .notMember => (b.holds? a).map fun found => .bool !found
  | .same => some (.bool (a.same b))
  | .notSame => some (.bool !(a.same b))
  | .equal => some (.bool (a.eq b))
  | .notEqual => some (.bool !(a.eq b))
  | .greater | .greaterEqual | .less | .lessEqual => (a.ordered? operator b).map .bool

/-- The value of an operand: nothing if it is missing or cannot be resolved. -/
def Expression.operandValue (e : Expression) : StateM Scope Value := do
  match ← (e.resolve .lenient).run with
  | .ok (some v) => return v
  | _ => return .none

/-- The negation of a value; one without a truth is as false as its negation. -/
def Value.negated (v : Value) : Value :=
  match v.truth with
  | .ok holds => .bool !holds
  | .error _ => .bool false

/-- **The value of a condition.** The right operand is only looked at if the left one does not
decide. -/
def Condition.evaluate : Condition Expression → StateM Scope Value
  | operand e => e.operandValue
  | negation c => return (← evaluate c).negated
  | binary operator left right => do
    let a ← evaluate left
    match operator.decided? a with
    | some answer => return answer
    | none =>
      let b ← evaluate right
      return (operator.result? ((← get).current a) b).getD (.bool false)

end Galley
