/-!
# Character classes as sorted boundaries

A class of characters is written as an increasing list of code points `[a₁, b₁, a₂, b₂, …]`. It
holds the characters from each `aᵢ` up to, but not including, `bᵢ`.
-/

namespace Galley.Text.Boundaries

/-- Whether `n` lies in one of the half-open intervals. -/
def holds : List Nat → Nat → Bool
  | low :: high :: rest, n => if n < low then false else n < high || holds rest n
  | [low], n => low ≤ n
  | [], _ => false

/-- The start of the interval that `n` lies in. -/
def startOf? : List Nat → Nat → Option Nat
  | low :: high :: rest, n =>
    if n < low then none else if n < high then some low else startOf? rest n
  | _, _ => none

end Galley.Text.Boundaries
