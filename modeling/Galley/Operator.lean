/-!
# Operators of conditions

The operators that join two operands, with the powers by which they bind. A greater power binds
tighter; the prefix operator `not` binds tighter than `and` and looser than `in`.
-/

namespace Galley

/-- An operator between two operands. -/
inductive Operator where
  | either
  | both
  | member
  | notMember
  | same
  | notSame
  | equal
  | notEqual
  | greater
  | greaterEqual
  | less
  | lessEqual
deriving DecidableEq, Inhabited

namespace Operator

/-- All operators. -/
def all : List Operator :=
  [either, both, member, notMember, same, notSame, equal, notEqual, greater, greaterEqual, less,
    lessEqual]

/-- How an operator is written. -/
def symbol : Operator → String
  | either => "or"
  | both => "and"
  | member => "in"
  | notMember => "not in"
  | same => "is"
  | notSame => "is not"
  | equal => "=="
  | notEqual => "!="
  | greater => ">"
  | greaterEqual => ">="
  | less => "<"
  | lessEqual => "<="

/-- The operator with a symbol. -/
def ofSymbol? (symbol : String) : Option Operator := all.find? (·.symbol = symbol)

/-- How tightly an operator binds. -/
def power : Operator → Nat
  | either => 6
  | both => 7
  | member | notMember => 9
  | _ => 10

/-- How tightly the operand of `not` is bound. -/
def notPower : Nat := 8

/-- Whether an operator is written with signs rather than words. -/
def isComparison : Operator → Bool
  | equal | notEqual | greater | greaterEqual | less | lessEqual => true
  | _ => false

end Operator

end Galley
