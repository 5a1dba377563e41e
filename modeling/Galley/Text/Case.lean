import Galley.Text.Boundaries
import Galley.Text.CaseTable

/-!
# Upper, lower and title case

Case mapping of whole texts with the full mappings, where one character may become several.

* `upper`, `lower`: every character mapped; a capital sigma at the end of a word becomes `ς`.
* `title`: the first cased character of each word in title case, the others in lower case.
* `capitalizeFirst`: only the first character of the text in upper case.
-/

namespace Galley.Text

namespace Case

/-- The distance by which the first matching run moves `n`. -/
def distance? (shifts : List Shift) (n : Nat) : Option Int :=
  (shifts.find? fun s => s.first ≤ n && n ≤ s.last && (n - s.first) % s.step == 0).map (·.distance)

/-- A non-ASCII character mapped by its expansion, else by its shift, else to itself. -/
def mapped (shifts : List Shift) (expansions : List (Nat × List Nat)) (c : Char) : List Char :=
  match expansions.lookup c.toNat with
  | some codes => codes.map Char.ofNat
  | none =>
    match distance? shifts c.toNat with
    | some d => [Char.ofNat (c.toNat + d).toNat]
    | none => [c]

/-- The upper case of a character. -/
def upperOf (c : Char) : List Char :=
  if c.toNat < 0x80 then [c.toUpper] else mapped upperShifts upperExpansions c

/-- The lower case of a character that is not a final sigma. -/
def lowerOf (c : Char) : List Char :=
  if c.toNat < 0x80 then [c.toLower] else mapped lowerShifts lowerExpansions c

/-- The title case of a character. -/
def titleOf (c : Char) : List Char :=
  match titleExceptions.lookup c.toNat with
  | some codes => codes.map Char.ofNat
  | none => upperOf c

/-- Whether a character is upper, lower or title case. -/
def isCased (c : Char) : Bool := Boundaries.holds casedBounds c.toNat

/-- Whether a character is passed over when the surroundings of a sigma are judged. -/
def isIgnorable (c : Char) : Bool := Boundaries.holds ignorableBounds c.toNat

/-- Whether the nearest character that is not passed over is cased. -/
def casedNext (text : List Char) : Bool :=
  match text.dropWhile isIgnorable with
  | [] => false
  | c :: _ => isCased c

/-- **Final sigma.** The lower case of `c` between `before` (nearest character first) and `after`:
a capital sigma is final if a cased character precedes it and none follows. -/
def lowerBetween (before : List Char) (c : Char) (after : List Char) : List Char :=
  if c = 'Σ' then if casedNext before && !casedNext after then ['ς'] else ['σ']
  else lowerOf c

end Case

open Case

/-- The text in upper case. -/
def upper (text : List Char) : List Char := text.flatMap upperOf

/-- The rest of a text in lower case, given the characters before it, nearest first. -/
def lowerFrom (before : List Char) : List Char → List Char
  | [] => []
  | c :: rest => lowerBetween before c rest ++ lowerFrom (c :: before) rest

/-- The text in lower case. -/
def lower (text : List Char) : List Char := lowerFrom [] text

/-- The rest of a text in title case, given the characters before it, nearest first. -/
def titleFrom (before : List Char) : List Char → List Char
  | [] => []
  | c :: rest =>
    let inWord := before.head?.any isCased
    (if inWord then lowerBetween before c rest else titleOf c) ++ titleFrom (c :: before) rest

/-- The text with each word in title case. -/
def title (text : List Char) : List Char := titleFrom [] text

/-- The text with its first character in upper case. -/
def capitalizeFirst : List Char → List Char
  | [] => []
  | c :: rest => upperOf c ++ rest

end Galley.Text
